import Mathlib.Tactic.IntervalCases
import TimeSeries.Proofs.Digits
import TimeSeries.Proofs.Traversal
import TimeSeries.Text.Utf8

/-!
Texts and their bytes. The bytes of a text are read as the text, and two texts compare byte by byte
as they do character by character.
-/
namespace TimeSeries.Text

open String (utf8EncodeChar)

/-- The bytes of a code point. -/
def codeBytes (n : Nat) : List Nat :=
  if n < 0x80 then [n]
  else if n < 0x800 then [0xc0 + n / 64, 0x80 + n % 64]
  else if n < 0x10000 then [0xe0 + n / 4096, 0x80 + n / 64 % 64, 0x80 + n % 64]
  else [0xf0 + n / 262144, 0x80 + n / 4096 % 64, 0x80 + n / 64 % 64, 0x80 + n % 64]

theorem isValid_toNat (c : Char) : c.toNat < 0xd800 ∨ 0xdfff < c.toNat ∧ c.toNat < 0x110000 :=
  c.valid

theorem utf8EncodeChar_eq (c : Char) :
    utf8EncodeChar c = (codeBytes c.toNat).map UInt8.ofNat := by
  have hvalid := isValid_toNat c
  have hval : c.val.toNat = c.toNat := rfl
  have hmod {m k : Nat} (h : m < k) : m % k = m := Nat.mod_eq_of_lt h
  rw [utf8EncodeChar, codeBytes]
  simp only [hval, ← Nat.lt_succ_iff]
  split
  · rfl
  · split
    · rw [hmod (by omega), Nat.add_comm _ 0xc0, Nat.add_comm _ 0x80]
      rfl
    · split
      · rw [hmod (m := c.toNat / 4096) (by omega), Nat.add_comm _ 0xe0, Nat.add_comm _ 0x80,
          Nat.add_comm _ 0x80]
        rfl
      · rw [hmod (m := c.toNat / 262144) (by omega), Nat.add_comm _ 0xf0, Nat.add_comm _ 0x80,
          Nat.add_comm _ 0x80, Nat.add_comm _ 0x80]
        rfl

theorem toNat_ofNat_of_lt {n : Nat} (h : n < 256) : (UInt8.ofNat n).toNat = n := by
  rw [UInt8.toNat_ofNat', Nat.mod_eq_of_lt h]

/-! ## Reading bytes -/

section Steps
variable {b k : Nat} {p : PartialChar} {rest : List UInt8}

theorem decodeAfter_whole {c : Option Char} (hb : b < 256) (h : leadByte b = .inl c) :
    decodeAfter none (UInt8.ofNat b :: rest) = c :: decodeAfter none rest := by
  rw [decodeAfter, toNat_ofNat_of_lt hb, h]

theorem decodeAfter_begin (hb : b < 256) (h : leadByte b = .inr p) :
    decodeAfter none (UInt8.ofNat b :: rest) = decodeAfter (some p) rest := by
  rw [decodeAfter, toNat_ofNat_of_lt hb, h]

theorem decodeAfter_last (hk : k < 64) (hbounds : p.low ≤ 0x80 + k ∧ 0x80 + k ≤ p.high)
    (hmissing : p.missing = 1) : decodeAfter (some p) (UInt8.ofNat (0x80 + k) :: rest) =
      some (Char.ofNat (p.bits * 64 + k)) :: decodeAfter none rest := by
  rw [decodeAfter, toNat_ofNat_of_lt (by omega)]
  simp only [hbounds, hmissing, and_self, if_true, Nat.add_sub_cancel_left]

theorem decodeAfter_next (hk : k < 64) (hbounds : p.low ≤ 0x80 + k ∧ 0x80 + k ≤ p.high)
    (hmissing : p.missing ≠ 1) : decodeAfter (some p) (UInt8.ofNat (0x80 + k) :: rest) =
      decodeAfter (some ⟨p.missing - 1, 0x80, 0xbf, p.bits * 64 + k⟩) rest := by
  rw [decodeAfter, toNat_ofNat_of_lt (by omega)]
  simp only [hbounds, hmissing, and_self, if_true, if_false, Nat.add_sub_cancel_left]

end Steps

theorem leadByte_two {k : Nat} (h : 2 ≤ k) (h' : k < 32) :
    leadByte (0xc0 + k) = .inr ⟨1, 0x80, 0xbf, k⟩ := by
  interval_cases k <;> rfl

theorem leadByte_three {k : Nat} (h : k < 16) : leadByte (0xe0 + k) =
    .inr ⟨2, if k = 0 then 0xa0 else 0x80, if k = 13 then 0x9f else 0xbf, k⟩ := by
  interval_cases k <;> rfl

theorem leadByte_four {k : Nat} (h : k ≤ 4) : leadByte (0xf0 + k) =
    .inr ⟨3, if k = 0 then 0x90 else 0x80, if k = 4 then 0x8f else 0xbf, k⟩ := by
  interval_cases k <;> rfl

/-- The bytes of a character are read as the character. -/
theorem decodeAfter_utf8EncodeChar (c : Char) (rest : List UInt8) :
    decodeAfter none (utf8EncodeChar c ++ rest) = some c :: decodeAfter none rest := by
  have hvalid := isValid_toNat c
  have hc {n : Nat} (h : n = c.toNat) : some (Char.ofNat n) = some c := by
    rw [h, Char.ofNat_toNat]
  have hlow (n : Nat) : n % 64 < 64 := Nat.mod_lt n (by decide)
  rw [utf8EncodeChar_eq, codeBytes]
  -- One case per number of bytes; the bounds of the second byte follow from the code point.
  split_ifs with h₁ h₂ h₃
  · have hlead : leadByte c.toNat = .inl (some c) := by rw [leadByte, if_pos h₁, hc rfl]
    exact decodeAfter_whole (by omega) hlead
  · simp only [List.map_cons, List.map_nil, List.cons_append, List.nil_append]
    rw [decodeAfter_begin (by omega) (leadByte_two (by omega) (by omega)),
      decodeAfter_last (hlow _) (by simp; omega) rfl, hc (by simp; omega)]
  · simp only [List.map_cons, List.map_nil, List.cons_append, List.nil_append]
    rw [decodeAfter_begin (by omega) (leadByte_three (by omega)),
      decodeAfter_next (hlow _) (by dsimp only; split_ifs <;> omega) (by simp),
      decodeAfter_last (hlow _) (by simp; omega) rfl, hc (by simp; omega)]
  · simp only [List.map_cons, List.map_nil, List.cons_append, List.nil_append]
    rw [decodeAfter_begin (by omega) (leadByte_four (by omega)),
      decodeAfter_next (hlow _) (by dsimp only; split_ifs <;> omega) (by simp),
      decodeAfter_next (hlow _) (by simp; omega) (by simp),
      decodeAfter_last (hlow _) (by simp; omega) rfl, hc (by simp; omega)]

theorem decodeAfter_flatMap (cs : List Char) :
    decodeAfter none (cs.flatMap utf8EncodeChar) = cs.map some := by
  induction cs with
  | nil => rfl
  | cons c cs ih => rw [List.flatMap_cons, decodeAfter_utf8EncodeChar, ih, List.map_cons]

theorem decodeUtf8?_encodeUtf8 (s : String) : decodeUtf8? (encodeUtf8 s) = some s := by
  have hall : s.toList.mapM some = some s.toList := by
    rw [mapM_eq_some_map fun c _ => rfl, List.map_id']
  rw [decodeUtf8?, encodeUtf8, decodeAfter_flatMap, List.mapM_map]
  show (s.toList.mapM some).map String.ofList = some s
  rw [hall, Option.map_some, String.ofList_toList]

theorem decodeUtf8Lossy_encodeUtf8 (s : String) : decodeUtf8Lossy (encodeUtf8 s) = s := by
  rw [decodeUtf8Lossy, encodeUtf8, decodeAfter_flatMap, List.map_map]
  simp [Function.comp_def]

/-! ## The order of bytes -/

theorem codeBytes_lt {n : Nat} (h : n < 0x110000) {b : Nat} (hb : b ∈ codeBytes n) : b < 256 := by
  rw [codeBytes] at hb
  split_ifs at hb
  all_goals
    simp only [List.mem_cons, List.not_mem_nil, or_false] at hb
    omega

theorem codeBytes_ne_nil (n : Nat) : codeBytes n ≠ [] := by
  unfold codeBytes
  split_ifs <;> simp

/-- The bytes of a smaller code point come first, whatever follows them. -/
theorem codeBytes_append_lt {m n : Nat} (h : m < n) (xs ys : List Nat) :
    codeBytes m ++ xs < codeBytes n ++ ys := by
  have hfirst {a b : Nat} (hab : a < b) (as bs : List Nat) : a :: as < b :: bs :=
    List.cons_lt_cons_iff.2 (.inl hab)
  unfold codeBytes
  -- Between two lengths the first byte decides, at one length the first byte that differs.
  split_ifs
  all_goals first | omega | exact hfirst (by omega) _ _ | skip
  all_goals
    rw [append_lt_append_iff (by rfl)]
    left
    simp only [List.cons_lt_cons_iff, List.lt_irrefl, and_false, or_false]
    omega

/-- The bytes of code points in a row compare as the code points do. -/
theorem flatMap_codeBytes_lt_iff {ms ns : List Nat} :
    ms.flatMap codeBytes < ns.flatMap codeBytes ↔ ms < ns := by
  induction ms generalizing ns with
  | nil =>
    cases ns with
    | nil => simp
    | cons n ns =>
      obtain ⟨b, bs, hb⟩ := List.exists_cons_of_ne_nil (codeBytes_ne_nil n)
      simp [hb]
  | cons m ms ih =>
    cases ns with
    | nil => simp
    | cons n ns =>
      rw [List.flatMap_cons, List.flatMap_cons, List.cons_lt_cons_iff]
      rcases Nat.lt_trichotomy m n with hlt | rfl | hgt
      · exact iff_of_true (codeBytes_append_lt hlt _ _) (.inl hlt)
      · simp [append_lt_append_iff rfl, ih]
      · have hbytes := codeBytes_append_lt hgt (ns.flatMap codeBytes) (ms.flatMap codeBytes)
        refine iff_of_false (fun hlt => List.lt_irrefl _ (List.lt_trans hlt hbytes)) ?_
        omega

theorem map_lt_map_iff {α β : Type} [LT α] [LT β] {f : α → β} (hlt : ∀ a b, f a < f b ↔ a < b)
    (hinj : Function.Injective f) {xs ys : List α} : xs.map f < ys.map f ↔ xs < ys := by
  induction xs generalizing ys with
  | nil => cases ys <;> simp
  | cons x xs ih =>
    cases ys with
    | nil => simp
    | cons y ys => simp [List.cons_lt_cons_iff, hlt, hinj.eq_iff, ih]

theorem map_toNat_encodeUtf8 (s : String) :
    (encodeUtf8 s).map UInt8.toNat = (s.toList.map Char.toNat).flatMap codeBytes := by
  rw [encodeUtf8, List.map_flatMap, List.flatMap_map]
  apply List.flatMap_congr
  intro c _
  have hvalid := isValid_toNat c
  have hbytes : ∀ b ∈ codeBytes c.toNat, (UInt8.toNat ∘ UInt8.ofNat) b = b := fun b hb =>
    toNat_ofNat_of_lt (codeBytes_lt (by omega) hb)
  rw [utf8EncodeChar_eq, List.map_map, List.map_congr_left hbytes, List.map_id']

/-- Texts compare byte by byte as they do character by character. -/
theorem encodeUtf8_lt_iff {s t : String} : encodeUtf8 s < encodeUtf8 t ↔ s < t := by
  have hbytes : (encodeUtf8 s).map UInt8.toNat < (encodeUtf8 t).map UInt8.toNat ↔
      encodeUtf8 s < encodeUtf8 t :=
    map_lt_map_iff (fun _ _ => UInt8.lt_iff_toNat_lt.symm) fun _ _ => UInt8.toNat_inj.1
  have hchars : s.toList.map Char.toNat < t.toList.map Char.toNat ↔ s.toList < t.toList :=
    map_lt_map_iff (f := Char.toNat) (fun _ _ => Iff.rfl) fun _ _ => Char.toNat_inj.1
  rw [← hbytes, map_toNat_encodeUtf8, map_toNat_encodeUtf8, flatMap_codeBytes_lt_iff, hchars,
    String.lt_iff]

end TimeSeries.Text
