import Markup.Json.Parse

/-!
# JSON texts

`Json.Spelling` tells which texts stand for a value: those of the JSON grammar without blanks
between their parts, numbers left out.  In a string every character may be escaped in any way that names it,
and may stand for itself if the grammar lets it.

The compact form of a value is such a text, however a writer chooses among the escapes
(`Json.IsLegible.spelling`), and `Json.parse` is a reader that takes all of them
(`Json.parse_of_spelling`).

* `Json.IsEscaping`   writers that escape what they must, and nothing else;
* `Json.Spelling`     the texts of a value, with what stands behind them;
* `Json.IsLegible`    the values whose compact form is a text of them.
-/

namespace Markup
namespace Json

/-! ## the grammar -/

/-- in a string it cannot stand for itself -/
def MustEscape (c : Char) : Prop := c = '"' ∨ c = '\\' ∨ c.toNat < 32

/-- an escape that names the character, by a letter or by its code -/
inductive IsEscape (c : Char) : List Char → Prop
  | short {e : Char} (h : escaped? e = some c.toNat) : IsEscape c ['\\', e]
  | long {h₁ h₂ h₃ h₄ : Char} (h : hexQuad? h₁ h₂ h₃ h₄ = some c.toNat) :
      IsEscape c ['\\', 'u', h₁, h₂, h₃, h₄]

structure IsEscaping (esc : Char → List Char) : Prop where
  plain : ∀ c, ¬MustEscape c → esc c = [c]
  escaped : ∀ c, MustEscape c → IsEscape c (esc c)

/-- the characters of a string behind its opening quote, and what stands behind the string -/
inductive SpellingChars : List Char → List Char → List Char → Prop
  | close (rest : List Char) : SpellingChars [] ('"' :: rest) rest
  | plain {c : Char} {cs xs rest : List Char} (hc : ¬MustEscape c) (h : SpellingChars cs xs rest) :
      SpellingChars (c :: cs) (c :: xs) rest
  | escape {c : Char} {e cs xs rest : List Char} (hc : IsEscape c e)
      (h : SpellingChars cs xs rest) : SpellingChars (c :: cs) (e ++ xs) rest

inductive SpellingText (s : String) : List Char → List Char → Prop
  | quoted {xs rest : List Char} (h : SpellingChars s.toList xs rest) :
      SpellingText s ('"' :: xs) rest

mutual

/-- a text of the value, and what stands behind it -/
inductive Spelling : Json → List Char → List Char → Prop
  | null (rest : List Char) : Spelling null ('n' :: 'u' :: 'l' :: 'l' :: rest) rest
  | yes (rest : List Char) : Spelling (bool true) ('t' :: 'r' :: 'u' :: 'e' :: rest) rest
  | no (rest : List Char) : Spelling (bool false) ('f' :: 'a' :: 'l' :: 's' :: 'e' :: rest) rest
  | text {s : String} {xs rest : List Char} (h : SpellingText s xs rest) : Spelling (text s) xs rest
  | noItems (rest : List Char) : Spelling (array []) ('[' :: ']' :: rest) rest
  | items {js : List Json} {xs rest : List Char} (h : SpellingItems js xs rest) :
      Spelling (array js) ('[' :: xs) rest
  | noFields (rest : List Char) : Spelling (record []) ('{' :: '}' :: rest) rest
  | fields {fs : List (String × Json)} {xs rest : List Char} (h : SpellingFields fs xs rest) :
      Spelling (record fs) ('{' :: xs) rest

/-- the items of an array behind its opener -/
inductive SpellingItems : List Json → List Char → List Char → Prop
  | last {j : Json} {xs rest : List Char} (h : Spelling j xs (']' :: rest)) :
      SpellingItems [j] xs rest
  | cons {j : Json} {js : List Json} {xs ys rest : List Char} (h : Spelling j xs (',' :: ys))
      (hs : SpellingItems js ys rest) : SpellingItems (j :: js) xs rest

/-- the fields of an object behind its opener -/
inductive SpellingFields : List (String × Json) → List Char → List Char → Prop
  | last {name : String} {j : Json} {xs ys rest : List Char} (hn : SpellingText name xs (':' :: ys))
      (h : Spelling j ys ('}' :: rest)) : SpellingFields [(name, j)] xs rest
  | cons {name : String} {j : Json} {fs : List (String × Json)} {xs ys zs rest : List Char}
      (hn : SpellingText name xs (':' :: ys)) (h : Spelling j ys (',' :: zs))
      (hs : SpellingFields fs zs rest) : SpellingFields ((name, j) :: fs) xs rest

end

/-! ## compact forms -/

/-- a tree of strings that are texts, without a number -/
inductive IsLegible : Json → Prop
  | null : IsLegible null
  | bool (b : Bool) : IsLegible (bool b)
  | text (s : String) : IsLegible (text s)
  | array {items : List Json} (h : ∀ j ∈ items, IsLegible j) : IsLegible (array items)
  | record {fields : List (String × Json)} (h : ∀ f ∈ fields, IsLegible f.2) :
      IsLegible (record fields)

section
variable {esc : Char → List Char} (he : IsEscaping esc)
include he

theorem spellingChars_flatMap (cs rest : List Char) :
    SpellingChars cs (cs.flatMap esc ++ '"' :: rest) rest := by
  induction cs with
  | nil => exact .close rest
  | cons c cs ih =>
    rw [List.flatMap_cons, List.append_assoc]
    by_cases hc : MustEscape c
    · exact .escape (he.escaped c hc) ih
    · rw [he.plain c hc]
      exact .plain hc ih

theorem spellingText_stringChars (s : String) (rest : List Char) :
    SpellingText s (stringChars esc (some s) ++ rest) rest := by
  have hquoted : stringChars esc (some s) ++ rest =
      '"' :: (s.toList.flatMap esc ++ '"' :: rest) := by
    show '"' :: s.toList.flatMap esc ++ ['"'] ++ rest = _
    simp
  rw [hquoted]
  exact .quoted (spellingChars_flatMap he s.toList rest)

omit he in
theorem spellingItems_itemChars {j : Json} {js : List Json}
    (h : ∀ i ∈ j :: js, ∀ rest, Spelling i (i.chars esc ++ rest) rest) (rest : List Char) :
    SpellingItems (j :: js) (j.chars esc ++ (itemChars esc js ++ rest)) rest := by
  induction js generalizing j with
  | nil => exact .last (h j List.mem_cons_self (']' :: rest))
  | cons i is ih =>
    obtain ⟨hj, his⟩ := List.forall_mem_cons.mp h
    have hchars : itemChars esc (i :: is) ++ rest =
        ',' :: (i.chars esc ++ (itemChars esc is ++ rest)) := by
      show ',' :: i.chars esc ++ itemChars esc is ++ rest = _
      simp
    rw [hchars]
    exact .cons (hj _) (ih his)

theorem spellingFields_fieldChars {name : String} {j : Json} {fs : List (String × Json)}
    (h : ∀ f ∈ (name, j) :: fs, ∀ rest, Spelling f.2 (f.2.chars esc ++ rest) rest)
    (rest : List Char) :
    SpellingFields ((name, j) :: fs) (stringChars esc (some name) ++ ':' :: (j.chars esc ++
      (fieldChars esc (fs.map fun f => (some f.1, f.2)) ++ rest))) rest := by
  induction fs generalizing name j with
  | nil =>
    exact .last (spellingText_stringChars he name _) (h (name, j) List.mem_cons_self ('}' :: rest))
  | cons f fs ih =>
    obtain ⟨hj, hfs⟩ := List.forall_mem_cons.mp h
    have hchars : fieldChars esc ((f :: fs).map fun f => (some f.1, f.2)) ++ rest =
        ',' :: (stringChars esc (some f.1) ++ ':' :: (f.2.chars esc ++
          (fieldChars esc (fs.map fun f => (some f.1, f.2)) ++ rest))) := by
      show ',' :: stringChars esc (some f.1) ++ ':' :: f.2.chars esc ++ fieldChars esc _ ++ rest = _
      simp
    rw [hchars]
    exact .cons (spellingText_stringChars he name _) (hj _) (ih hfs)

/-- the compact form is a text of the value, with anything behind it -/
theorem IsLegible.spelling {j : Json} (h : IsLegible j) (rest : List Char) :
    Spelling j (j.chars esc ++ rest) rest := by
  induction h generalizing rest with
  | null => exact .null rest
  | bool b =>
    cases b with
    | true => exact .yes rest
    | false => exact .no rest
  | text s => exact .text (spellingText_stringChars he s rest)
  | @array items _ ih =>
    cases items with
    | nil => exact .noItems rest
    | cons j js =>
      have hchars : (Json.array (j :: js)).chars esc ++ rest =
          '[' :: (j.chars esc ++ (itemChars esc js ++ rest)) := by
        show '[' :: j.chars esc ++ itemChars esc js ++ rest = _
        simp
      rw [hchars]
      exact .items (spellingItems_itemChars ih rest)
  | @record fields _ ih =>
    cases fields with
    | nil => exact .noFields rest
    | cons f fs =>
      have hchars : (Json.record (f :: fs)).chars esc ++ rest =
          '{' :: (stringChars esc (some f.1) ++ ':' :: (f.2.chars esc ++
            (fieldChars esc (fs.map fun f => (some f.1, f.2)) ++ rest))) := by
        show '{' :: stringChars esc (some f.1) ++ ':' :: f.2.chars esc ++
          fieldChars esc _ ++ rest = _
        simp
      rw [hchars]
      exact .fields (spellingFields_fieldChars he ih rest)

end

/-! ### the escapes of `Json.render` -/

theorem hexQuad?_control {n : Nat} (h : n < 32) :
    hexQuad? '0' '0' (hexDigit (n / 16)) (hexDigit (n % 16)) = some n := by
  have h0 : hexValue? '0' = some 0 := by decide
  have hvalue : ((0 * 16 + 0) * 16 + n / 16) * 16 + n % 16 = n := by omega
  rw [hexQuad?, h0, hexValue?_hexDigit (by omega), hexValue?_hexDigit (Nat.mod_lt n (by decide))]
  exact congrArg some hvalue

theorem isEscape_escape {c : Char} (h : MustEscape c) : IsEscape c (escape c) := by
  unfold escape
  split
  · next hc => rw [hc]; exact .short rfl
  split
  · next hc => rw [hc]; exact .short rfl
  split
  · next hc => rw [hc]; exact .short rfl
  split
  · next hc => rw [hc]; exact .short rfl
  split
  · next hc => rw [hc]; exact .short rfl
  split
  · next hc => exact .short (congrArg some hc.symm)
  split
  · next hc => exact .short (congrArg some hc.symm)
  split
  · next hc => exact .long (hexQuad?_control hc)
  · next hq hb _ _ _ _ _ hlow =>
    rcases h with h | h | h
    · exact absurd h hq
    · exact absurd h hb
    · exact absurd h hlow

theorem isEscaping_escape : IsEscaping escape := by
  refine ⟨fun c hc => ?_, fun c hc => isEscape_escape hc⟩
  have hlow : ¬c.toNat < 32 := fun h => hc (.inr (.inr h))
  have hne : ∀ d : Char, d.toNat < 32 → c ≠ d := fun d hd h => hlow (h ▸ hd)
  unfold escape
  rw [if_neg fun h => hc (.inl h), if_neg fun h => hc (.inr (.inl h)), if_neg (hne _ (by decide)),
    if_neg (hne _ (by decide)), if_neg (hne _ (by decide)), if_neg (by omega), if_neg (by omega),
    if_neg hlow]

/-! ## what is read -/

theorem readUnits_quote (cs : List Char) : readUnits ('"' :: cs) = some ([], cs) := by
  rw [readUnits.eq_def]
  rfl

theorem readUnits_plain {c : Char} (h : ¬MustEscape c) (cs : List Char) :
    readUnits (c :: cs) = (readUnits cs).map fun (ns, rest) => (c.toNat :: ns, rest) := by
  rw [readUnits.eq_def]
  simp only [if_neg fun hq => h (.inl hq), if_neg fun hb => h (.inr (.inl hb)),
    if_neg fun hc => h (.inr (.inr hc))]

theorem readUnits_escape {c : Char} {e : List Char} (h : IsEscape c e) (cs : List Char) :
    readUnits (e ++ cs) = (readUnits cs).map fun (ns, rest) => (c.toNat :: ns, rest) := by
  cases h with
  | @short e he =>
    have hu : e ≠ 'u' := by
      rintro rfl
      cases he
    rw [List.cons_append, List.singleton_append, readUnits.eq_def]
    simp only [if_neg hu, he, Option.bind_some]
    rfl
  | long h =>
    rw [readUnits.eq_def]
    simp only [List.cons_append, List.nil_append, h, Option.bind_some]
    rfl

theorem SpellingChars.readUnits {cs xs rest : List Char} (h : SpellingChars cs xs rest) :
    readUnits xs = some (cs.map Char.toNat, rest) := by
  induction h with
  | close rest => exact readUnits_quote rest
  | plain hc _ ih =>
    rw [readUnits_plain hc, ih]
    rfl
  | escape hc _ ih =>
    rw [readUnits_escape hc, ih]
    rfl

/-- no character is half of a surrogate pair -/
theorem not_surrogate (c : Char) : isHigh c.toNat = false ∧ isLow c.toNat = false := by
  have hc : c.toNat < 0xD800 ∨ 0xDFFF < c.toNat ∧ c.toNat < 0x110000 := c.valid
  simp only [isHigh, isLow, Bool.and_eq_false_iff, decide_eq_false_iff_not]
  omega

theorem joinUnits_chars (cs : List Char) : joinUnits (cs.map Char.toNat) = some cs := by
  induction cs with
  | nil => rfl
  | cons c cs ih =>
    obtain ⟨hh, hl⟩ := not_surrogate c
    cases cs with
    | nil => simp [joinUnits, hh, hl, Char.ofNat_toNat]
    | cons d ds =>
      show joinUnits (c.toNat :: d.toNat :: ds.map Char.toNat) = _
      rw [joinUnits, if_neg (by rw [hh]; decide), if_neg (by rw [hl]; decide), ← List.map_cons, ih,
        Char.ofNat_toNat]
      rfl

theorem SpellingChars.readString {s : String} {xs rest : List Char}
    (h : SpellingChars s.toList xs rest) : readString xs = some (some s, rest) := by
  rw [Json.readString, h.readUnits]
  show some ((joinUnits (s.toList.map Char.toNat)).map String.ofList, rest) = _
  rw [joinUnits_chars, Option.map_some, String.ofList_toList]

theorem SpellingText.readName {s : String} {xs ys : List Char} (h : SpellingText s xs (':' :: ys)) :
    readName xs = some (some s, ys) := by
  obtain ⟨h⟩ := h
  have hquote : ∀ cs, skipBlanks ('"' :: cs) = '"' :: cs := fun _ => rfl
  have hcolon : skipBlanks (':' :: ys) = ':' :: ys := rfl
  rw [Json.readName, hquote]
  simp only [h.readString, Option.bind_some, hcolon]

/-! ### lengths -/

theorem SpellingChars.length_lt {cs xs rest : List Char} (h : SpellingChars cs xs rest) :
    rest.length < xs.length := by
  induction h with
  | close rest => exact Nat.lt_succ_self _
  | plain _ _ ih => exact Nat.lt_succ_of_lt ih
  | escape _ _ ih =>
    rw [List.length_append]
    omega

theorem SpellingText.length_lt {s : String} {xs rest : List Char} (h : SpellingText s xs rest) :
    rest.length < xs.length := by
  obtain ⟨h⟩ := h
  exact Nat.lt_succ_of_lt h.length_lt

mutual

theorem Spelling.length_lt {j : Json} {xs rest : List Char} (h : Spelling j xs rest) :
    rest.length < xs.length := by
  match h with
  | .null _ | .yes _ | .no _ | .noItems _ | .noFields _ => simp only [List.length_cons]; omega
  | .text h => exact h.length_lt
  | .items h => exact Nat.lt_succ_of_lt h.length_lt
  | .fields h => exact Nat.lt_succ_of_lt h.length_lt

theorem SpellingItems.length_lt {js : List Json} {xs rest : List Char}
    (h : SpellingItems js xs rest) : rest.length < xs.length := by
  match h with
  | .last h => exact Nat.lt_of_succ_lt h.length_lt
  | .cons h hs => exact Nat.lt_trans hs.length_lt (Nat.lt_of_succ_lt h.length_lt)

theorem SpellingFields.length_lt {fs : List (String × Json)} {xs rest : List Char}
    (h : SpellingFields fs xs rest) : rest.length < xs.length := by
  match h with
  | .last hn h =>
    exact Nat.lt_trans (Nat.lt_of_succ_lt h.length_lt) (Nat.lt_of_succ_lt hn.length_lt)
  | .cons hn h hs =>
    exact Nat.lt_trans hs.length_lt
      (Nat.lt_trans (Nat.lt_of_succ_lt h.length_lt) (Nat.lt_of_succ_lt hn.length_lt))

end

/-! ### values -/

/-- a value begins with a sign that ends nothing -/
theorem Spelling.head {j : Json} {xs rest : List Char} (h : Spelling j xs rest) :
    ∃ c cs, xs = c :: cs ∧ isBlank c = false ∧ c ≠ ']' := by
  match h with
  | .null _ | .yes _ | .no _ | .noItems _ | .noFields _ => exact ⟨_, _, rfl, by decide, by decide⟩
  | .items _ | .fields _ => exact ⟨_, _, rfl, by decide, by decide⟩
  | .text h =>
    obtain ⟨_⟩ := h
    exact ⟨_, _, rfl, by decide, by decide⟩

theorem SpellingItems.head {js : List Json} {xs rest : List Char} (h : SpellingItems js xs rest) :
    ∃ c cs, xs = c :: cs ∧ isBlank c = false ∧ c ≠ ']' := by
  match h with
  | .last h => exact h.head
  | .cons h _ => exact h.head

theorem SpellingFields.head {fs : List (String × Json)} {xs rest : List Char}
    (h : SpellingFields fs xs rest) : ∃ cs, xs = '"' :: cs := by
  match h with
  | .last hn _ | .cons hn _ _ =>
    obtain ⟨_⟩ := hn
    exact ⟨_, rfl⟩

theorem skipBlanks_of_not_blank {c : Char} (h : isBlank c = false) (cs : List Char) :
    skipBlanks (c :: cs) = c :: cs :=
  List.dropWhile_cons_of_neg (by rw [h]; decide)

theorem readValue_items {c : Char} (hb : isBlank c = false) (he : c ≠ ']') (fuel : Nat)
    (cs : List Char) : readValue (fuel + 1) ('[' :: c :: cs) =
      (readItems fuel (c :: cs)).map fun (items, rest) => (array items, rest) := by
  have hopen : skipBlanks ('[' :: c :: cs) = '[' :: c :: cs := rfl
  rw [readValue, hopen]
  simp only [if_true, skipBlanks_of_not_blank hb]
  split
  · next h => exact absurd (List.cons.inj h).1 he
  · rfl

theorem readValue_fields (fuel : Nat) (cs : List Char) :
    readValue (fuel + 1) ('{' :: '"' :: cs) =
      (readFields fuel ('"' :: cs)).map fun (fields, rest) => (object fields, rest) := by
  rw [readValue]
  rfl

mutual

/-- by induction on the grammar: two calls for each character are enough, one that opens a part and
one that reads it -/
theorem Spelling.readValue {j : Json} {xs rest : List Char} (h : Spelling j xs rest) {fuel : Nat}
    (hf : 2 * xs.length ≤ fuel) : readValue fuel xs = some (j, rest) := by
  have hlen := h.length_lt
  obtain ⟨f, rfl⟩ : ∃ f, fuel = f + 1 := ⟨fuel - 1, by omega⟩
  match h with
  | .null _ | .yes _ | .no _ | .noItems _ | .noFields _ => rfl
  | .text h =>
    obtain ⟨h⟩ := h
    have hquote : ∀ cs, skipBlanks ('"' :: cs) = '"' :: cs := fun _ => rfl
    rw [Json.readValue, hquote]
    show (readString _).map _ = _
    rw [h.readString]
    rfl
  | .items h =>
    rw [List.length_cons] at hf
    obtain ⟨c, cs, rfl, hb, he⟩ := h.head
    rw [readValue_items hb he, h.readItems (by omega)]
    rfl
  | .fields h =>
    rw [List.length_cons] at hf
    obtain ⟨cs, rfl⟩ := h.head
    rw [readValue_fields, h.readFields (by omega)]
    rfl

theorem SpellingItems.readItems {js : List Json} {xs rest : List Char}
    (h : SpellingItems js xs rest) {fuel : Nat} (hf : 2 * xs.length + 1 ≤ fuel) :
    readItems fuel xs = some (js, rest) := by
  obtain ⟨f, rfl⟩ : ∃ f, fuel = f + 1 := ⟨fuel - 1, by omega⟩
  rw [readItems.eq_def]
  match h with
  | .last h =>
    have hend : skipBlanks (']' :: rest) = ']' :: rest := rfl
    simp only [h.readValue (show _ ≤ f by omega), Option.bind_some, hend]
  | @SpellingItems.cons _ _ _ ys _ h hs =>
    have hlen := h.length_lt
    rw [List.length_cons] at hlen
    have hcomma : skipBlanks (',' :: ys) = ',' :: ys := rfl
    simp only [h.readValue (show _ ≤ f by omega), Option.bind_some, hcomma,
      hs.readItems (show _ ≤ f by omega)]
    rfl

theorem SpellingFields.readFields {fs : List (String × Json)} {xs rest : List Char}
    (h : SpellingFields fs xs rest) {fuel : Nat} (hf : 2 * xs.length + 1 ≤ fuel) :
    readFields fuel xs = some (fs.map fun f => (some f.1, f.2), rest) := by
  obtain ⟨f, rfl⟩ : ∃ f, fuel = f + 1 := ⟨fuel - 1, by omega⟩
  rw [readFields.eq_def]
  match h with
  | .last hn h =>
    have hlen := hn.length_lt
    rw [List.length_cons] at hlen
    have hend : skipBlanks ('}' :: rest) = '}' :: rest := rfl
    simp only [hn.readName, h.readValue (show _ ≤ f by omega), Option.bind_some, hend]
    rfl
  | @SpellingFields.cons _ _ _ _ _ zs _ hn h hs =>
    have hlen := hn.length_lt
    have hlen' := h.length_lt
    rw [List.length_cons] at hlen hlen'
    have hcomma : skipBlanks (',' :: zs) = ',' :: zs := rfl
    simp only [hn.readName, h.readValue (show _ ≤ f by omega), Option.bind_some, hcomma,
      hs.readFields (show _ ≤ f by omega)]
    rfl

end

/-- whatever text of a value there is, it is read as the value -/
theorem parse_of_spelling {s : String} {j : Json} (h : Spelling j s.toList []) :
    parse s = some j := by
  have hlen : s.toList.length = s.length := String.length_toList
  rw [parse, h.readValue (by omega)]
  rfl

end Json
end Markup
