import TimeSeries.Proofs.JsonNumber
import TimeSeries.Proofs.JsonString

/-!
The compact text of a value is read as the tree of the value, whatever goes on or closes after it.
The numbers of the value have to be integers of up to 64 bits.
-/
namespace TimeSeries.Json

mutual

/-- The tree of a value. -/
def node : Json → Node
  | null => .null
  | bool b => .bool b
  | integer n => .integer n
  | decimal text => .decimal text
  | string s => .string s
  | array items => .array (itemNodes items) true
  | object members => .object (memberNodes members) true

def itemNodes : List Json → List Node
  | [] => []
  | item :: rest => node item :: itemNodes rest

def memberNodes : List (String × Json) → List (Option String × Node)
  | [] => []
  | (key, value) :: rest => (some key, node value) :: memberNodes rest

end

mutual

/-- All numbers of the value are integers of up to 64 bits. -/
def IsPlain : Json → Prop
  | integer n => n.natAbs < 0x10000000000000000
  | decimal _ => False
  | array items => ItemsPlain items
  | object members => MembersPlain members
  | _ => True

def ItemsPlain : List Json → Prop
  | [] => True
  | item :: rest => IsPlain item ∧ ItemsPlain rest

def MembersPlain : List (String × Json) → Prop
  | [] => True
  | (_, value) :: rest => IsPlain value ∧ MembersPlain rest

end

theorem itemNodes_eq (items : List Json) : itemNodes items = items.map node := by
  induction items with
  | nil => rfl
  | cons item items ih => rw [itemNodes, ih, List.map_cons]

theorem itemsPlain_iff {items : List Json} : ItemsPlain items ↔ ∀ item ∈ items, IsPlain item := by
  induction items with
  | nil => simp [ItemsPlain]
  | cons item items ih => simp [ItemsPlain, ih]

/-- What a value can start with. -/
theorem exists_head {j : Json} (h : IsPlain j) : ∃ c cs, j.chars = c :: cs ∧
    (c.isDigit = true ∨ c ∈ ['-', '"', '[', '\x7b', 'n', 't', 'f']) := by
  cases j with
  | null => exact ⟨_, _, rfl, .inr (by decide)⟩
  | bool b => cases b <;> exact ⟨_, _, rfl, .inr (by decide)⟩
  | integer n =>
    cases n with
    | ofNat n =>
      obtain ⟨c, cs, hcs⟩ := List.exists_cons_of_ne_nil (Decimal.ofNat_ne_nil n)
      exact ⟨c, cs, hcs, .inl (Decimal.isDigit_of_mem_ofNat (hcs ▸ List.mem_cons_self))⟩
    | negSucc n => exact ⟨_, _, rfl, .inr (by decide)⟩
  | decimal text => exact absurd h id
  | string s => exact ⟨_, _, rfl, .inr (by decide)⟩
  | array items => exact ⟨_, _, rfl, .inr (by decide)⟩
  | object members => exact ⟨_, _, rfl, .inr (by decide)⟩

namespace Node

theorem skipSpace_cons {c : Char} (h : isSpace c = false) (cs : List Char) :
    skipSpace (c :: cs) = c :: cs := by simp [skipSpace, h]

theorem isSpace_eq_false {c : Char}
    (h : c.isDigit = true ∨ c ∈ ['-', '"', '[', '\x7b', 'n', 't', 'f']) : isSpace c = false := by
  rw [isSpace, decide_eq_false_iff_not]
  rintro (rfl | rfl | rfl | rfl) <;> revert h <;> decide

/-- Reading a value that starts like a number. -/
theorem scan_number {c : Char} (h : c.isDigit = true ∨ c = '-') (fuel : Nat) (cs : List Char) :
    scan (fuel + 1) (c :: cs) = match Numeral.scan (c :: cs) with
      | some (x, rest) => (ofNumeral x, rest)
      | none => (malformed, []) := by
  have hspace : isSpace c = false := isSpace_eq_false (h.imp_right fun h => by simp [h])
  have hne {d : Char} (hd : (d.isDigit || d == '-') = false) : c ≠ d := by
    rintro rfl
    rcases h with h | rfl
    · simp [h] at hd
    · exact absurd hd (by decide)
  rw [scan, skipSpace_cons hspace]
  split <;> rename_i heq
  all_goals try exact absurd (List.cons.inj heq).1 (hne (by decide))
  rfl

theorem scan_integer {n : Int} (h : n.natAbs < 0x10000000000000000) {rest : List Char}
    (hends : Ends rest)
    (fuel : Nat) : scan (fuel + 1) (Decimal.ofInt n ++ rest) = (.integer n, rest) := by
  have hscan := Numeral.scan_ofInt n hends
  have hnumeral := ofNumeral_ofInt h
  cases n with
  | ofNat n =>
    obtain ⟨c, cs, hcs⟩ := List.exists_cons_of_ne_nil (Decimal.ofNat_ne_nil n)
    have hc : c.isDigit = true := Decimal.isDigit_of_mem_ofNat (hcs ▸ List.mem_cons_self)
    rw [Decimal.ofInt, hcs, List.cons_append] at hscan ⊢
    rw [scan_number (.inl hc), hscan]
    simp only [hnumeral]
  | negSucc n =>
    rw [Decimal.ofInt, List.cons_append] at hscan ⊢
    rw [scan_number (.inr rfl), hscan]
    simp only [hnumeral]

theorem scan_stringChars (s : String) (fuel : Nat) (rest : List Char) :
    scan (fuel + 1) (stringChars s ++ rest) = (.string s, rest) := by
  have hchars : stringChars s ++ rest = '"' :: (s.toList.flatMap escaped ++ '"' :: rest) := by
    simp [stringChars]
  rw [hchars, scan, skipSpace_cons (by decide)]
  simp only [scanString_flatMap]

/-- An array whose first item is not mistaken for its end. -/
theorem scan_array {c : Char} {cs : List Char} (hspace : isSpace c = false) (hend : c ≠ ']')
    (fuel : Nat) : scan (fuel + 1) ('[' :: c :: cs) =
      let (items, closed, rest) := scanItems fuel (c :: cs)
      (array items closed, rest) := by
  rw [scan, skipSpace_cons (by decide)]
  simp only [skipSpace_cons hspace]
  split
  · next heq => exact absurd (List.cons.inj heq).1 hend
  · rfl

theorem scan_object (cs : List Char) (fuel : Nat) : scan (fuel + 1) ('\x7b' :: '"' :: cs) =
    let (members, closed, rest) := scanMembers fuel ('"' :: cs)
    (object members closed, rest) := by
  have hquote : isSpace '"' = false := by decide
  rw [scan, skipSpace_cons (by decide)]
  simp only [skipSpace_cons hquote]
  rfl

section Steps
variable {fuel : Nat} {cs rest : List Char} {key : String} {item : Node}

theorem scanItems_next (h : scan fuel cs = (item, ',' :: rest)) : scanItems (fuel + 1) cs =
    let (items, closed, rest) := scanItems fuel rest
    (item :: items, closed, rest) := by
  have hcomma : isSpace ',' = false := by decide
  rw [scanItems]
  simp only [h, skipSpace_cons hcomma]

theorem scanItems_last (h : scan fuel cs = (item, ']' :: rest)) :
    scanItems (fuel + 1) cs = ([item], true, rest) := by
  have hbracket : isSpace ']' = false := by decide
  rw [scanItems]
  simp only [h, skipSpace_cons hbracket]

theorem stringChars_append (key : String) (cs : List Char) : stringChars key ++ ':' :: cs =
    '"' :: (key.toList.flatMap escaped ++ '"' :: ':' :: cs) := by simp [stringChars]

theorem scanMembers_next (h : scan fuel cs = (item, ',' :: rest)) :
    scanMembers (fuel + 1) (stringChars key ++ ':' :: cs) =
      let (members, closed, rest) := scanMembers fuel rest
      ((some key, item) :: members, closed, rest) := by
  have hcomma : isSpace ',' = false := by decide
  have hcolon : isSpace ':' = false := by decide
  rw [stringChars_append, scanMembers, skipSpace_cons (by decide)]
  simp only [scanString_flatMap, skipSpace_cons hcolon, h, skipSpace_cons hcomma]

theorem scanMembers_last (h : scan fuel cs = (item, '\x7d' :: rest)) :
    scanMembers (fuel + 1) (stringChars key ++ ':' :: cs) = ([(some key, item)], true, rest) := by
  have hbrace : isSpace '\x7d' = false := by decide
  have hcolon : isSpace ':' = false := by decide
  rw [stringChars_append, scanMembers, skipSpace_cons (by decide)]
  simp only [scanString_flatMap, skipSpace_cons hcolon, h, skipSpace_cons hbrace]

end Steps
end Node

open Node

theorem chars_ne_nil {j : Json} (h : j.IsPlain) : 1 ≤ j.chars.length := by
  obtain ⟨c, cs, hcs, -⟩ := exists_head h
  rw [hcs]
  simp

theorem exists_head_itemChars {item : Json} (h : item.IsPlain) (items : List Json) :
    ∃ c cs, itemChars (item :: items) = c :: cs ∧
      (c.isDigit = true ∨ c ∈ ['-', '"', '[', '\x7b', 'n', 't', 'f']) := by
  obtain ⟨c, cs, hcs, hc⟩ := exists_head h
  cases items with
  | nil => exact ⟨c, cs, hcs, hc⟩
  | cons next items => exact ⟨c, cs ++ ',' :: itemChars (next :: items), by simp [itemChars, hcs], hc⟩

theorem exists_quote_memberChars (key : String) (value : Json) (members : List (String × Json)) :
    ∃ cs, memberChars ((key, value) :: members) = '"' :: cs := by
  cases members with
  | nil => exact ⟨_, rfl⟩
  | cons member members => exact ⟨_, rfl⟩

mutual

/-- The text of a value is read as its tree. The induction is on the value; every level of it takes
two characters, and with them the fuel of two steps. -/
theorem scan_chars : ∀ (j : Json), j.IsPlain → ∀ {fuel : Nat} {rest : List Char},
    2 * j.chars.length ≤ fuel → Ends rest → scan fuel (j.chars ++ rest) = (j.node, rest)
  | null, _, fuel + 1, rest, _, _ => rfl
  | bool true, _, fuel + 1, rest, _, _ => rfl
  | bool false, _, fuel + 1, rest, _, _ => rfl
  | integer n, h, fuel + 1, rest, _, hends => scan_integer h hends fuel
  | decimal text, h, _, _, _, _ => absurd h id
  | string s, _, fuel + 1, rest, _, _ => scan_stringChars s fuel rest
  | array [], _, fuel + 1, rest, _, _ => rfl
  | array (item :: items), h, fuel + 1, rest, hfuel, _ => by
    have hlength : (array (item :: items)).chars.length = (itemChars (item :: items)).length + 2 := by
      simp [chars]
    obtain ⟨c, cs, hcs, hc⟩ := exists_head_itemChars h.1 items
    have hend : c ≠ ']' := by
      rintro rfl
      revert hc
      decide
    have hchars : (array (item :: items)).chars ++ rest =
        '[' :: (itemChars (item :: items) ++ ']' :: rest) := by simp [chars]
    have hitems := @scanItems_itemChars item items h fuel rest (by omega)
    rw [hchars]
    rw [hcs, List.cons_append] at hitems ⊢
    rw [scan_array (isSpace_eq_false hc) hend, hitems]
    rfl
  | object [], _, fuel + 1, rest, _, _ => rfl
  | object ((key, value) :: members), h, fuel + 1, rest, hfuel, _ => by
    have hlength : (object ((key, value) :: members)).chars.length =
        (memberChars ((key, value) :: members)).length + 2 := by
      simp [chars]
    obtain ⟨cs, hcs⟩ := exists_quote_memberChars key value members
    have hchars : (object ((key, value) :: members)).chars ++ rest =
        '\x7b' :: (memberChars ((key, value) :: members) ++ '\x7d' :: rest) := by simp [chars]
    have hmembers := @scanMembers_memberChars key value members h fuel rest (by omega)
    rw [hchars]
    rw [hcs, List.cons_append] at hmembers ⊢
    rw [scan_object, hmembers]
    rfl
  | j, h, 0, rest, hfuel, _ => by
    have := chars_ne_nil h
    omega

theorem scanItems_itemChars : ∀ (item : Json) (items : List Json),
    ItemsPlain (item :: items) → ∀ {fuel : Nat} {rest : List Char},
    2 * (itemChars (item :: items)).length + 1 ≤ fuel →
    scanItems fuel (itemChars (item :: items) ++ ']' :: rest) =
      (itemNodes (item :: items), true, rest)
  | item, [], h, fuel + 1, rest, hfuel => by
    rw [itemChars] at hfuel ⊢
    have hends : Ends (']' :: rest) := .cons (by decide) rest
    rw [scanItems_last (@scan_chars item h.1 fuel _ (by omega) hends)]
    rfl
  | item, next :: items, h, fuel + 1, rest, hfuel => by
    have hchars : itemChars (item :: next :: items) ++ ']' :: rest =
        item.chars ++ ',' :: (itemChars (next :: items) ++ ']' :: rest) := by
      simp [itemChars]
    have hlength : (itemChars (item :: next :: items)).length =
        item.chars.length + (itemChars (next :: items)).length + 1 := by
      simp [itemChars]
      omega
    have hends : Ends (',' :: (itemChars (next :: items) ++ ']' :: rest)) := .cons (by decide) _
    rw [hchars, scanItems_next (@scan_chars item h.1 fuel _ (by omega) hends),
      scanItems_itemChars next items h.2 (by omega)]
    rfl

theorem scanMembers_memberChars : ∀ (key : String) (value : Json) (members : List (String × Json)),
    MembersPlain ((key, value) :: members) → ∀ {fuel : Nat} {rest : List Char},
    2 * (memberChars ((key, value) :: members)).length + 1 ≤ fuel →
    scanMembers fuel (memberChars ((key, value) :: members) ++ '\x7d' :: rest) =
      (memberNodes ((key, value) :: members), true, rest)
  | key, value, [], h, fuel + 1, rest, hfuel => by
    have hchars : memberChars [(key, value)] ++ '\x7d' :: rest =
        stringChars key ++ ':' :: (value.chars ++ '\x7d' :: rest) := by
      simp [memberChars]
    have hlength : value.chars.length < (memberChars [(key, value)]).length := by
      simp [memberChars]
      omega
    have hends : Ends ('\x7d' :: rest) := .cons (by decide) rest
    rw [hchars, scanMembers_last (@scan_chars value h.1 fuel _ (by omega) hends)]
    rfl
  | key, value, (key', value') :: members, h, fuel + 1, rest, hfuel => by
    have hchars : memberChars ((key, value) :: (key', value') :: members) ++ '\x7d' :: rest =
        stringChars key ++ ':' :: (value.chars ++
          ',' :: (memberChars ((key', value') :: members) ++ '\x7d' :: rest)) := by
      simp [memberChars]
    have hlength : value.chars.length + (memberChars ((key', value') :: members)).length <
        (memberChars ((key, value) :: (key', value') :: members)).length := by
      simp [memberChars]
      omega
    have hends : Ends (',' :: (memberChars ((key', value') :: members) ++ '\x7d' :: rest)) :=
      .cons (by decide) _
    rw [hchars, scanMembers_next (@scan_chars value h.1 fuel _ (by omega) hends),
      scanMembers_memberChars key' value' members h.2 (by omega)]
    rfl

end

/-- A text that a value was written to is read as the tree of the value, to the end. -/
theorem ofChars_chars {j : Json} (h : j.IsPlain) : Node.ofChars j.chars = (j.node, []) := by
  have hscan := @scan_chars j h (2 * j.chars.length + 2) [] (by omega) .nil
  rwa [List.append_nil] at hscan

end TimeSeries.Json
