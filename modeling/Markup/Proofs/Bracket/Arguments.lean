import Markup.Proofs.Bracket.Depth

/-!
# The arguments of a round bracket

The arguments are the tokens between the commas at the depth of their bracket.  A comma right behind
the opener stands before the first argument.  So the arguments with commas between them are the
enclosed tokens, except for such a comma (`arguments_eq_some_iff`), and they are read again from
commas between them but for a first one without tokens (`arguments_commas`).

* `commas`             arguments with a comma between neighbours;
* `IsArgumentFrom`     tokens up to the next comma or closer at the depth of the bracket;
* `IsArgumentList`     the arguments among the tokens that a bracket encloses.
-/

namespace Markup

/-! ## commas between arguments -/

/-- arguments with a comma between neighbours -/
def commas (args : List (List String)) : List String := [","].intercalate args

theorem commas_singleton (arg : List String) : commas [arg] = arg := by
  simp [commas, List.intercalate]

theorem commas_cons_cons (arg next : List String) (args : List (List String)) :
    commas (arg :: next :: args) = arg ++ "," :: commas (next :: args) := by
  simp [commas, List.intercalate]

theorem commas_cons_token (t : String) (arg : List String) (args : List (List String)) :
    commas ((t :: arg) :: args) = t :: commas (arg :: args) := by
  cases args with
  | nil => rw [commas_singleton, commas_singleton]
  | cons next args => rw [commas_cons_cons, commas_cons_cons, List.cons_append]

theorem exists_commas_of_mem {args : List (List String)} {arg : List String} (ha : arg ∈ args) :
    ∃ before behind, commas args = before ++ (arg ++ behind) := by
  induction args with
  | nil => exact absurd ha List.not_mem_nil
  | cons a args ih =>
    cases args with
    | nil =>
      obtain rfl := List.mem_singleton.mp ha
      exact ⟨[], [], by rw [commas_singleton, List.append_nil, List.nil_append]⟩
    | cons next args =>
      rw [commas_cons_cons]
      rcases List.mem_cons.mp ha with rfl | ha
      · exact ⟨[], "," :: commas (next :: args), rfl⟩
      · obtain ⟨before, behind, h⟩ := ih ha
        exact ⟨a ++ "," :: before, behind, by rw [h, List.append_assoc, List.cons_append]⟩

theorem mem_commas {args : List (List String)} {arg : List String} (ha : arg ∈ args) {t : String}
    (ht : t ∈ arg) : t ∈ commas args := by
  obtain ⟨before, behind, h⟩ := exists_commas_of_mem ha
  rw [h]
  exact List.mem_append_right _ (List.mem_append_left _ ht)

/-! ## one argument -/

/-- tokens that close the brackets opened before them and those they open, and have no comma outside
all of them -/
def IsArgumentFrom : Nat → List String → Prop
  | depth, [] => depth = 0
  | depth, t :: ts =>
    ¬(t = "," ∧ depth = 0) ∧ ∃ d, Bracket.round.depthAfter depth t = some d ∧ IsArgumentFrom d ts

def IsArgument (ts : List String) : Prop := IsArgumentFrom 0 ts

theorem IsArgumentFrom.depthOver {depth : Nat} {ts : List String} (h : IsArgumentFrom depth ts) :
    Bracket.round.depthOver depth ts = some 0 := by
  induction ts generalizing depth with
  | nil => exact congrArg some h
  | cons t ts ih =>
    obtain ⟨-, d, hd, hts⟩ := h
    rw [Bracket.depthOver_cons_of_some hd]
    exact ih hts

theorem depthAfter_comma (depth : Nat) : Bracket.round.depthAfter depth "," = some depth := rfl

/-- the arguments keep the depth of their bracket, and the commas between them do so too -/
theorem depthOver_commas {args : List (List String)} (h : ∀ arg ∈ args, IsArgument arg) :
    Bracket.round.depthOver 0 (commas args) = some 0 := by
  induction args with
  | nil => rfl
  | cons arg args ih =>
    obtain ⟨harg, hargs⟩ := List.forall_mem_cons.mp h
    cases args with
    | nil =>
      rw [commas_singleton]
      exact harg.depthOver
    | cons next args =>
      rw [commas_cons_cons, Bracket.depthOver_append_of_some harg.depthOver,
        Bracket.depthOver_cons_of_some (depthAfter_comma 0)]
      exact ih hargs

/-! ## the arguments behind an opener -/

section
variable {depth : Nat} {ts arg rest : List String} {args : List (List String)}

theorem argumentsFrom_close (ts : List String) :
    argumentsFrom 0 (")" :: ts) = some ([], [], ts) := rfl

theorem argumentsFrom_comma (ts : List String) :
    argumentsFrom 0 ("," :: ts) =
      (argumentsFrom 0 ts).map fun (arg, args, rest) => ([], arg :: args, rest) := rfl

theorem argumentsFrom_token {t : String} {d : Nat} (hcomma : ¬(t = "," ∧ depth = 0))
    (hd : Bracket.round.depthAfter depth t = some d) (ts : List String) :
    argumentsFrom depth (t :: ts) =
      (argumentsFrom d ts).map fun (arg, args, rest) => (t :: arg, args, rest) := by
  rw [argumentsFrom, hd]
  simp only
  rw [if_neg hcomma]

/-- an argument is read up to the tokens that end it -/
theorem argumentsFrom_append (harg : IsArgumentFrom depth arg)
    (h : argumentsFrom 0 ts = some ([], args, rest)) :
    argumentsFrom depth (arg ++ ts) = some (arg, args, rest) := by
  induction arg generalizing depth with
  | nil =>
    obtain rfl : depth = 0 := harg
    exact h
  | cons t arg ih =>
    obtain ⟨hcomma, d, hd, harg⟩ := harg
    rw [List.cons_append, argumentsFrom_token hcomma hd, ih harg]
    rfl

theorem argumentsFrom_commas (harg : IsArgumentFrom depth arg) (hargs : ∀ a ∈ args, IsArgument a)
    (rest : List String) :
    argumentsFrom depth (commas (arg :: args) ++ ")" :: rest) = some (arg, args, rest) := by
  induction args generalizing depth arg with
  | nil =>
    rw [commas_singleton]
    exact argumentsFrom_append harg (argumentsFrom_close rest)
  | cons next args ih =>
    obtain ⟨hnext, hargs⟩ := List.forall_mem_cons.mp hargs
    rw [commas_cons_cons, List.append_assoc]
    refine argumentsFrom_append harg ?_
    rw [List.cons_append, argumentsFrom_comma, ih hnext hargs]
    rfl

/-- what is read are arguments, with commas between them -/
theorem eq_commas_of_argumentsFrom (h : argumentsFrom depth ts = some (arg, args, rest)) :
    IsArgumentFrom depth arg ∧ (∀ a ∈ args, IsArgument a) ∧
      ts = commas (arg :: args) ++ ")" :: rest := by
  induction ts generalizing depth arg args with
  | nil => exact absurd h (by simp [argumentsFrom])
  | cons t ts ih =>
    cases hd : Bracket.round.depthAfter depth t with
    | none =>
      obtain ⟨rfl, hc⟩ := Bracket.depthAfter_eq_none.mp hd
      obtain rfl : t = ")" := beq_iff_eq.mp hc
      obtain ⟨rfl, rfl, rfl⟩ : [] = arg ∧ [] = args ∧ ts = rest := by
        simpa [argumentsFrom_close] using h
      exact ⟨rfl, fun a ha => absurd ha List.not_mem_nil, rfl⟩
    | some d =>
      by_cases hcomma : t = "," ∧ depth = 0
      · -- the argument ends here, and the next one begins
        obtain ⟨rfl, rfl⟩ := hcomma
        rw [argumentsFrom_comma] at h
        obtain ⟨⟨next, more, rest'⟩, hnext, h⟩ := Option.map_eq_some_iff.mp h
        obtain ⟨rfl, rfl, rfl⟩ : [] = arg ∧ next :: more = args ∧ rest' = rest := by simpa using h
        obtain ⟨hn, hmore, rfl⟩ := ih hnext
        refine ⟨rfl, List.forall_mem_cons.mpr ⟨hn, hmore⟩, ?_⟩
        rw [commas_cons_cons]
        rfl
      · rw [argumentsFrom_token hcomma hd] at h
        obtain ⟨⟨arg', args', rest'⟩, harg', h⟩ := Option.map_eq_some_iff.mp h
        obtain ⟨rfl, rfl, rfl⟩ : t :: arg' = arg ∧ args' = args ∧ rest' = rest := by simpa using h
        obtain ⟨ha, hargs, rfl⟩ := ih harg'
        exact ⟨⟨hcomma, d, hd, ha⟩, hargs, by rw [commas_cons_token, List.cons_append]⟩

/-- behind the opener or a comma, the tokens are cut at the commas up to the closer -/
theorem argumentsFrom_eq_some_iff :
    argumentsFrom depth ts = some (arg, args, rest) ↔
      IsArgumentFrom depth arg ∧ (∀ a ∈ args, IsArgument a) ∧
        ts = commas (arg :: args) ++ ")" :: rest := by
  refine ⟨eq_commas_of_argumentsFrom, ?_⟩
  rintro ⟨harg, hargs, rfl⟩
  exact argumentsFrom_commas harg hargs rest

end

/-- the arguments among the tokens that a round bracket encloses -/
inductive IsArgumentList : List (List String) → List String → Prop
  | none : IsArgumentList [] []
  | plain {t : String} {arg : List String} {args : List (List String)}
      (h : ∀ a ∈ (t :: arg) :: args, IsArgument a) :
      IsArgumentList ((t :: arg) :: args) (commas ((t :: arg) :: args))
  | behindComma {arg : List String} {args : List (List String)}
      (h : ∀ a ∈ arg :: args, IsArgument a) :
      IsArgumentList (arg :: args) ("," :: commas (arg :: args))

theorem arguments_eq_some_iff {ts rest : List String} {args : List (List String)} :
    arguments ts = some (args, rest) ↔
      ∃ inner, IsArgumentList args inner ∧ ts = inner ++ ")" :: rest := by
  constructor
  · intro h
    cases ts with
    | nil => exact absurd h (by simp [arguments])
    | cons t ts =>
      rw [arguments] at h
      by_cases hc : t = ")"
      · rw [if_pos hc] at h
        obtain ⟨rfl, rfl⟩ := Prod.mk.inj (Option.some.inj h)
        exact ⟨[], .none, by rw [hc, List.nil_append]⟩
      · rw [if_neg hc] at h
        obtain ⟨⟨arg, args', rest'⟩, hfrom, h⟩ := Option.map_eq_some_iff.mp h
        obtain ⟨rfl, rfl⟩ := Prod.mk.inj h
        obtain ⟨harg, hargs, hts⟩ := argumentsFrom_eq_some_iff.mp hfrom
        have hall := List.forall_mem_cons.mpr ⟨harg, hargs⟩
        by_cases hm : t = ","
        · rw [if_pos hm] at hts
          exact ⟨_, .behindComma hall, by rw [hm, hts, List.cons_append]⟩
        · rw [if_neg hm] at hts
          cases arg with
          | nil =>
            -- the first token would be a closer or a comma
            cases args' with
            | nil => exact absurd (List.cons.inj hts).1 hc
            | cons next args' =>
              rw [commas_cons_cons] at hts
              exact absurd (List.cons.inj hts).1 hm
          | cons u us => exact ⟨_, .plain hall, hts⟩
  · rintro ⟨inner, hlist, rfl⟩
    cases hlist with
    | none => rfl
    | @plain t arg args h =>
      obtain ⟨harg, hargs⟩ := List.forall_mem_cons.mp h
      have hfrom := argumentsFrom_commas harg hargs rest
      obtain ⟨hcomma, d, hd, -⟩ := harg
      have hc : t ≠ ")" := by
        rintro rfl
        exact absurd hd (by rw [Bracket.depthAfter_zero_of_closes rfl]; simp)
      have hm : t ≠ "," := fun hm => hcomma ⟨hm, rfl⟩
      rw [commas_cons_token, List.cons_append] at hfrom ⊢
      rw [arguments, if_neg hc, if_neg hm, hfrom]
      rfl
    | @behindComma arg args h =>
      obtain ⟨harg, hargs⟩ := List.forall_mem_cons.mp h
      rw [List.cons_append, arguments, if_neg (by decide), if_pos rfl,
        argumentsFrom_commas harg hargs]
      rfl

namespace IsArgumentList

variable {args : List (List String)} {inner : List String}

theorem isArgument (h : IsArgumentList args inner) : ∀ arg ∈ args, IsArgument arg := by
  cases h with
  | none => exact fun _ ha => absurd ha List.not_mem_nil
  | plain h | behindComma h => exact h

/-- the enclosed tokens are the arguments with commas between them, perhaps behind a comma -/
theorem eq_commas (h : IsArgumentList args inner) : inner = commas args ∨ inner = "," :: commas args := by
  cases h with
  | none | plain => exact .inl rfl
  | behindComma => exact .inr rfl

theorem mem_inner (h : IsArgumentList args inner) {arg : List String} (ha : arg ∈ args) {t : String}
    (ht : t ∈ arg) : t ∈ inner := by
  have hm := mem_commas ha ht
  rcases h.eq_commas with rfl | rfl
  · exact hm
  · exact List.mem_cons_of_mem _ hm

theorem depthOver (h : IsArgumentList args inner) : Bracket.round.depthOver 0 inner = some 0 := by
  have hd := depthOver_commas h.isArgument
  rcases h.eq_commas with rfl | rfl
  · exact hd
  · rw [Bracket.depthOver_cons_of_some (depthAfter_comma 0)]
    exact hd

theorem unclosed?_eq (h : IsArgumentList args inner) : unclosed? inner = unclosed? (commas args) := by
  rcases h.eq_commas with rfl | rfl
  · rfl
  · exact unclosed?_cons_of_none rfl _

end IsArgumentList

/-- the arguments that are read from commas between these ones: a first one without tokens is not
begun by the comma behind it -/
def dropBlank : List (List String) → List (List String)
  | [] :: args => args
  | args => args

theorem arguments_commas {args : List (List String)} (h : ∀ arg ∈ args, IsArgument arg)
    (rest : List String) :
    arguments (commas args ++ ")" :: rest) = some (dropBlank args, rest) := by
  refine arguments_eq_some_iff.mpr ⟨commas args, ?_, rfl⟩
  match args, h with
  | [], _ => exact .none
  | [[]], _ => exact .none
  | [] :: next :: args, h =>
    rw [commas_cons_cons]
    exact .behindComma (List.forall_mem_cons.mp h).2
  | (t :: ts) :: args, h => exact .plain h

end Markup
