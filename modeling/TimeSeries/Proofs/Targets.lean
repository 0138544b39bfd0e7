import Mathlib.Data.List.TakeWhile
import TimeSeries.Http.Route
import TimeSeries.Json.Basic
import TimeSeries.Proofs.Utf8

/-!
Targets of requests. Texts whose bytes are all escaped hold no separator and are read back as they
were, in a path as well as in a query, and so are paths and queries put together from them.
-/
namespace TimeSeries.Http

open String (utf8EncodeChar)

/-! ## Separators -/

section Separators
variable {c : Char} {cs : List Char}

theorem splitAt_cons_self (rest : List Char) : splitAt c (c :: rest) = [] :: splitAt c rest := by
  rw [splitAt, if_pos rfl]

theorem splitAt_append (h : c ∉ cs) (rest : List Char) :
    splitAt c (cs ++ c :: rest) = cs :: splitAt c rest := by
  induction cs with
  | nil => exact splitAt_cons_self rest
  | cons d cs ih =>
    rw [List.mem_cons, not_or] at h
    rw [List.cons_append, splitAt, if_neg (Ne.symm h.1), ih h.2]

theorem splitAt_of_not_mem (h : c ∉ cs) : splitAt c cs = [cs] := by
  induction cs with
  | nil => rfl
  | cons d cs ih =>
    rw [List.mem_cons, not_or] at h
    rw [splitAt, if_neg (Ne.symm h.1), ih h.2]

/-- Parts put together with a separator between them come apart again. -/
theorem splitAt_intercalate {parts : List (List Char)} (hne : parts ≠ [])
    (h : ∀ part ∈ parts, c ∉ part) : splitAt c ([c].intercalate parts) = parts := by
  induction parts with
  | nil => exact absurd rfl hne
  | cons part parts ih =>
    cases parts with
    | nil =>
      rw [List.intercalate_singleton]
      exact splitAt_of_not_mem (h part List.mem_cons_self)
    | cons part' parts =>
      rw [List.intercalate_cons_cons, List.append_assoc, List.singleton_append, splitAt_append,
        ih (by simp)]
      · exact fun p hp => h p (List.mem_cons_of_mem _ hp)
      · exact h part List.mem_cons_self

theorem all_ne (h : c ∉ cs) : ∀ d ∈ cs, decide (d ≠ c) = true := by
  intro d hd
  rw [decide_eq_true_iff]
  rintro rfl
  exact h hd

theorem cutAt_append (h : c ∉ cs) (rest : List Char) : cutAt c (cs ++ c :: rest) = (cs, rest) := by
  rw [cutAt, List.takeWhile_append_of_pos (all_ne h), List.dropWhile_append_of_pos (all_ne h)]
  simp

theorem cutAt_of_not_mem (h : c ∉ cs) : cutAt c cs = (cs, []) := by
  rw [cutAt, List.takeWhile_eq_self_iff.2 (all_ne h), List.dropWhile_eq_nil_iff.2 (all_ne h)]
  rfl

theorem mem_intercalate {d : Char} {parts : List (List Char)}
    (h : d ∈ [c].intercalate parts) : d = c ∨ ∃ part ∈ parts, d ∈ part := by
  induction parts with
  | nil => cases h
  | cons part parts ih =>
    cases parts with
    | nil =>
      rw [List.intercalate_singleton] at h
      exact .inr ⟨part, List.mem_cons_self, h⟩
    | cons part' parts =>
      rw [List.intercalate_cons_cons, List.append_assoc, List.mem_append, List.mem_append,
        List.mem_singleton] at h
      rcases h with h | rfl | h
      · exact .inr ⟨part, List.mem_cons_self, h⟩
      · exact .inl rfl
      · rcases ih h with rfl | ⟨p, hp, hd⟩
        · exact .inl rfl
        · exact .inr ⟨p, List.mem_cons_of_mem _ hp, hd⟩

end Separators

/-! ## Escapes -/

/-- Every byte of a text as a percent sign and two hexadecimal digits. -/
def percentEncode (s : String) : List Char :=
  (Text.encodeUtf8 s).flatMap fun b => '%' :: Json.hexPair b.toNat

theorem digitChar_hex : ∀ n < 16, (Nat.digitChar n).isAlphanum = true ∧
    (Nat.digitChar n).toNat < 0x80 ∧ hexValue? (UInt8.ofNat (Nat.digitChar n).toNat) = some n := by
  decide

theorem mem_percentEncode {s : String} {c : Char} (h : c ∈ percentEncode s) :
    c = '%' ∨ c.isAlphanum = true := by
  obtain ⟨b, -, hc⟩ := List.mem_flatMap.1 h
  have hb := b.toNat_lt
  rw [Json.hexPair, List.mem_cons, List.mem_cons, List.mem_singleton] at hc
  rcases hc with rfl | rfl | rfl
  · exact .inl rfl
  · exact .inr (digitChar_hex _ (by omega)).1
  · exact .inr (digitChar_hex _ (by omega)).1

theorem not_mem_percentEncode {s : String} {c : Char} (hc : c ≠ '%' ∧ c.isAlphanum = false) :
    c ∉ percentEncode s := by
  intro h
  rcases mem_percentEncode h with heq | halnum
  · exact hc.1 heq
  · rw [hc.2] at halnum
    cases halnum

theorem utf8EncodeChar_of_lt {c : Char} (h : c.toNat < 0x80) :
    utf8EncodeChar c = [UInt8.ofNat c.toNat] := by
  rw [Text.utf8EncodeChar_eq, Text.codeBytes, if_pos h]
  rfl

/-- An escape is read as its byte. -/
theorem percentDecodeFrom_escape (b : UInt8) (rest : List UInt8) :
    percentDecodeFrom 0 (('%' :: Json.hexPair b.toNat).flatMap utf8EncodeChar ++ rest) =
      b :: percentDecodeFrom 0 rest := by
  have hb := b.toNat_lt
  obtain ⟨-, hlt, hhigh⟩ := digitChar_hex (b.toNat / 16) (by omega)
  obtain ⟨-, hlt', hlow⟩ := digitChar_hex (b.toNat % 16) (by omega)
  have hbytes : ('%' :: Json.hexPair b.toNat).flatMap utf8EncodeChar =
      [0x25, UInt8.ofNat (Nat.digitChar (b.toNat / 16)).toNat,
        UInt8.ofNat (Nat.digitChar (b.toNat % 16)).toNat] := by
    simp only [Json.hexPair, List.flatMap_cons, List.flatMap_nil, utf8EncodeChar_of_lt hlt,
      utf8EncodeChar_of_lt hlt']
    rfl
  have hvalue : UInt8.ofNat (b.toNat / 16 * 16 + b.toNat % 16) = b := by
    rw [Nat.div_add_mod', UInt8.ofNat_toNat]
  have hescape : escape? (0x25 :: UInt8.ofNat (Nat.digitChar (b.toNat / 16)).toNat ::
      UInt8.ofNat (Nat.digitChar (b.toNat % 16)).toNat :: rest) = some b := by
    rw [escape?, hhigh, hlow]
    exact congrArg some hvalue
  rw [hbytes]
  simp only [List.cons_append, List.nil_append, percentDecodeFrom, hescape]

theorem percentDecode_percentEncode (s : String) :
    percentDecode (Text.encodeUtf8 (String.ofList (percentEncode s))) = Text.encodeUtf8 s := by
  rw [percentDecode, Text.encodeUtf8, String.toList_ofList, percentEncode]
  induction Text.encodeUtf8 s with
  | nil => rfl
  | cons b bytes ih => rw [List.flatMap_cons, List.flatMap_append, percentDecodeFrom_escape, ih]

theorem decodeSegment?_percentEncode (s : String) : decodeSegment? (percentEncode s) = some s := by
  rw [decodeSegment?, percentDecode_percentEncode, Text.decodeUtf8?_encodeUtf8]

theorem decodeForm_percentEncode (s : String) : decodeForm (percentEncode s) = s := by
  have hspaced : (percentEncode s).map (fun c => if c = '+' then ' ' else c) = percentEncode s := by
    conv_rhs => rw [← List.map_id (percentEncode s)]
    apply List.map_congr_left
    intro c hc
    have hplus : c ≠ '+' := by
      rintro rfl
      exact not_mem_percentEncode (by decide) hc
    rw [if_neg hplus, id]
  rw [decodeForm, hspaced, percentDecode_percentEncode, Text.decodeUtf8Lossy_encodeUtf8]

theorem exists_percentEncode {s : String} (h : s ≠ "") : ∃ rest, percentEncode s = '%' :: rest := by
  cases hbytes : Text.encodeUtf8 s with
  | nil =>
    have hdecode := Text.decodeUtf8?_encodeUtf8 s
    rw [hbytes] at hdecode
    exact absurd (Option.some.inj hdecode).symm h
  | cons b bytes =>
    rw [percentEncode, hbytes]
    exact ⟨_, rfl⟩

/-! ## Queries -/

/-- The name of a parameter that stands for itself in a query. -/
structure IsBare (name : String) : Prop where
  fragment : '#' ∉ name.toList
  ampersand : '&' ∉ name.toList
  equals : '=' ∉ name.toList
  decode : decodeForm name.toList = name

def encodeParameter (p : String × String) : List Char := p.1.toList ++ '=' :: percentEncode p.2

/-- Names and values as a query. -/
def encodeQuery (parameters : List (String × String)) : List Char :=
  ['&'].intercalate (parameters.map encodeParameter)

theorem not_mem_encodeParameter {p : String × String} {c : Char}
    (hc : c ≠ '%' ∧ c.isAlphanum = false) (hequals : c ≠ '=') (hname : c ∉ p.1.toList) :
    c ∉ encodeParameter p := by
  rw [encodeParameter, List.mem_append, List.mem_cons]
  rintro (hin | heq | hin)
  · exact hname hin
  · exact hequals heq
  · exact not_mem_percentEncode hc hin

section Parameters
variable {parameters : List (String × String)} (h : ∀ p ∈ parameters, IsBare p.1)
include h

theorem not_mem_encodeQuery : '#' ∉ encodeQuery parameters := by
  intro hmem
  rcases mem_intercalate hmem with heq | ⟨part, hpart, hc⟩
  · cases heq
  · obtain ⟨p, hp, rfl⟩ := List.mem_map.1 hpart
    exact not_mem_encodeParameter (by decide) (by decide) (h p hp).fragment hc

/-- A query is read back as it was put together. -/
theorem decodeQuery_encodeQuery : decodeQuery (encodeQuery parameters) = parameters := by
  rcases eq_or_ne parameters [] with rfl | hne
  · rfl
  · have hsplit : splitAt '&' (encodeQuery parameters) = parameters.map encodeParameter := by
      apply splitAt_intercalate
      · simpa using hne
      · intro part hpart
        obtain ⟨p, hp, rfl⟩ := List.mem_map.1 hpart
        exact not_mem_encodeParameter (by decide) (by decide) (h p hp).ampersand
    have hfilter : (parameters.map encodeParameter).filter (· ≠ []) =
        parameters.map encodeParameter := by
      rw [List.filter_eq_self]
      intro part hpart
      obtain ⟨p, -, rfl⟩ := List.mem_map.1 hpart
      simp [encodeParameter]
    rw [decodeQuery, hsplit, hfilter, List.map_map]
    conv_rhs => rw [← List.map_id parameters]
    apply List.map_congr_left
    intro p hp
    have hcut : cutAt '=' (encodeParameter p) = (p.1.toList, percentEncode p.2) :=
      cutAt_append (h p hp).equals _
    rw [Function.comp_apply, hcut]
    show (decodeForm p.1.toList, decodeForm (percentEncode p.2)) = p
    rw [(h p hp).decode, decodeForm_percentEncode]

end Parameters

/-! ## Paths -/

section Path
variable {path : List Char} (hfragment : '#' ∉ path) (hquery : '?' ∉ path)
include hfragment hquery

theorem splitTarget_append {query : List Char} (h : '#' ∉ query) :
    splitTarget (String.ofList (path ++ '?' :: query)) = (path, query) := by
  have hnone : '#' ∉ path ++ '?' :: query := by
    rw [List.mem_append, List.mem_cons]
    rintro (hpath | heq | hin)
    · exact hfragment hpath
    · cases heq
    · exact h hin
  rw [splitTarget, String.toList_ofList, cutAt_of_not_mem hnone, cutAt_append hquery]

theorem splitTarget_path : splitTarget (String.ofList path) = (path, []) := by
  rw [splitTarget, String.toList_ofList, cutAt_of_not_mem hfragment, cutAt_of_not_mem hquery]

end Path

theorem ofPath?_intercalate {segments : List (List Char)} (hne : segments ≠ [])
    (h : ∀ segment ∈ segments, '/' ∉ segment) :
    Route.ofPath? (['/'].intercalate segments) =
      Route.ofSegments? (segments.map String.ofList) := by
  rw [Route.ofPath?, splitAt_intercalate hne h]

theorem ofSegments?_call {id method : String} (hempty : method ≠ "")
    (hrecord : method ≠ "observations") (hcall : method ≠ "call") :
    Route.ofSegments? ["", "api", "series", id, method] = some (.call id method) := by
  simp [Route.ofSegments?, hempty]

theorem ofSegments?_callWithArguments (id : String) :
    Route.ofSegments? ["", "api", "series", id, "call"] = some (.callWithArguments id) := by
  simp [Route.ofSegments?]

/-- The path of a series with one more segment. -/
def seriesPath (id : SeriesId) (last : List Char) : List Char :=
  ['/'].intercalate [[], "api".toList, "series".toList, percentEncode id, last]

section SeriesPath
variable {id : SeriesId} {last : List Char}

theorem not_mem_seriesPath {c : Char} (hc : c ≠ '%' ∧ c.isAlphanum = false) (hslash : c ≠ '/')
    (hlast : c ∉ last) : c ∉ seriesPath id last := by
  have hword {word : String} (h : word.toList.all Char.isAlphanum = true) : c ∉ word.toList := by
    intro hin
    have halnum := List.all_eq_true.1 h c hin
    rw [hc.2] at halnum
    cases halnum
  intro hmem
  rcases mem_intercalate hmem with heq | ⟨segment, hsegment, hin⟩
  · exact hslash heq
  · simp only [List.mem_cons, List.not_mem_nil, or_false] at hsegment
    rcases hsegment with rfl | rfl | rfl | rfl | rfl
    · cases hin
    · exact hword (by decide) hin
    · exact hword (by decide) hin
    · exact not_mem_percentEncode hc hin
    · exact hlast hin

theorem ofPath?_seriesPath (hlast : '/' ∉ last) : Route.ofPath? (seriesPath id last) =
    Route.ofSegments?
      ["", "api", "series", String.ofList (percentEncode id), String.ofList last] := by
  rw [seriesPath, ofPath?_intercalate (by simp)]
  · rfl
  · intro segment hsegment
    simp only [List.mem_cons, List.not_mem_nil, or_false] at hsegment
    rcases hsegment with rfl | rfl | rfl | rfl | rfl
    · exact List.not_mem_nil
    · decide
    · decide
    · exact not_mem_percentEncode (by decide)
    · exact hlast

end SeriesPath

end TimeSeries.Http
