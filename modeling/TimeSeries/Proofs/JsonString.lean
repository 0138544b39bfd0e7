import TimeSeries.Json.Node
import TimeSeries.Json.Basic

/-!
Strings in JSON text: every character is written in a way that reads back as the character, so a
string of any characters is read as itself.
-/
namespace TimeSeries.Json.Node

theorem scanUnits_raw {c : Char} (hquote : c ≠ '"') (hslash : c ≠ '\\') (hc : 0x20 ≤ c.toNat)
    (rest : List Char) : scanUnits (c :: rest) =
      (scanUnits rest).map fun (units, rest) => (c.toNat :: units, rest) := by
  have hnot : ¬ c.toNat < 0x20 := by omega
  rw [scanUnits]
  · simp only [hnot, if_false]
    cases scanUnits rest <;> rfl
  all_goals simp_all

theorem scanUnits_escape {e c : Char} (he : e ≠ 'u') (h : simpleEscape? e = some c)
    (rest : List Char) : scanUnits ('\\' :: e :: rest) =
      (scanUnits rest).map fun (units, rest) => (c.toNat :: units, rest) := by
  rw [scanUnits]
  · simp only [h]
    cases scanUnits rest <;> rfl
  · simp_all

theorem hex4?_hexPair (n : Nat) (h : n < 0x20) :
    hex4? '0' '0' (Nat.digitChar (n / 16)) (Nat.digitChar (n % 16)) = some n := by
  revert n
  decide

/-- A character is read back from the way it is written. -/
theorem scanUnits_escaped (c : Char) (rest : List Char) : scanUnits (escaped c ++ rest) =
    (scanUnits rest).map fun (units, rest) => (c.toNat :: units, rest) := by
  rw [escaped]
  -- the seven characters with an escape of their own
  iterate 7
    split
    · next h =>
      subst h
      exact scanUnits_escape (by decide) rfl rest
  split
  · next h =>
    change scanUnits ('\\' :: 'u' :: '0' :: '0' :: Nat.digitChar (c.toNat / 16) ::
      Nat.digitChar (c.toNat % 16) :: rest) = _
    rw [scanUnits, hex4?_hexPair _ h]
    cases scanUnits rest <;> rfl
  · next hquote hslash _ _ _ _ _ hc => exact scanUnits_raw hquote hslash (by omega) rest

theorem scanUnits_flatMap (cs : List Char) (rest : List Char) :
    scanUnits (cs.flatMap escaped ++ '"' :: rest) = some (cs.map Char.toNat, rest) := by
  induction cs with
  | nil => rfl
  | cons c cs ih =>
    rw [List.flatMap_cons, List.append_assoc, scanUnits_escaped, ih]
    rfl

/-- No character is half of a surrogate pair. -/
theorem not_surrogate (c : Char) :
    isHighSurrogate c.toNat = false ∧ isLowSurrogate c.toNat = false := by
  have h := c.valid
  simp only [isHighSurrogate, isLowSurrogate, decide_eq_false_iff_not]
  have hc : c.toNat < 0xd800 ∨ 0xdfff < c.toNat ∧ c.toNat < 0x110000 := h
  omega

theorem joinUnits_map (cs : List Char) : joinUnits (cs.map Char.toNat) = some cs := by
  induction cs with
  | nil => rfl
  | cons c cs ih =>
    have hc := not_surrogate c
    cases cs with
    | nil => simp [joinUnits, hc]
    | cons d cs =>
      rw [List.map_cons, List.map_cons, joinUnits, hc.1, hc.2, ← List.map_cons, ih]
      simp

/-- A string of any characters is read from the way it is written. -/
theorem scanString_flatMap (s : String) (rest : List Char) :
    scanString (s.toList.flatMap escaped ++ '"' :: rest) = some (some s, rest) := by
  rw [scanString, scanUnits_flatMap, Option.map_some]
  simp [joinUnits_map]

end TimeSeries.Json.Node
