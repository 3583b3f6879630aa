import Markup.Cursor
import Markup.Proofs.Bracket.Arguments

/-!
# Two scans for the closer of a round bracket

Behind a round bracket the scan for its arguments and the scan for the tokens it encloses end at the
same closer, or both fail because there is none (`arguments_of_enclosed`, `arguments_eq_none`).  What
the first gives is the second cut at the commas at the depth of the bracket
(`takeArguments_matches_takeEnclosed`).

* `outerCommas`      the commas that no inner bracket encloses;
* `dropComma`        tokens without the comma in front of the first argument.
-/

namespace Markup

/-! ## commas at the depth of the bracket -/

/-- the number of commas at depth 0, of tokens that begin at this depth; a closer at depth 0 does not
change the depth -/
def outerCommas : Nat → List String → Nat
  | _, [] => 0
  | depth, t :: ts =>
    (if t = "," ∧ depth = 0 then 1 else 0) +
      outerCommas ((Bracket.round.depthAfter depth t).getD 0) ts

theorem outerCommas_comma (ts : List String) : outerCommas 0 ("," :: ts) = outerCommas 0 ts + 1 :=
  Nat.add_comm _ _

theorem outerCommas_cons {depth d : Nat} {t : String} (hcomma : ¬(t = "," ∧ depth = 0))
    (hd : Bracket.round.depthAfter depth t = some d) (ts : List String) :
    outerCommas depth (t :: ts) = outerCommas d ts := by
  rw [outerCommas, hd, if_neg hcomma, Nat.zero_add, Option.getD_some]

/-- the commas behind an argument are those of the tokens behind it -/
theorem IsArgumentFrom.outerCommas_append {depth : Nat} {arg : List String}
    (h : IsArgumentFrom depth arg) (ts : List String) :
    outerCommas depth (arg ++ ts) = outerCommas 0 ts := by
  induction arg generalizing depth with
  | nil =>
    obtain rfl : depth = 0 := h
    rfl
  | cons t arg ih =>
    obtain ⟨hcomma, d, hd, harg⟩ := h
    rw [List.cons_append, outerCommas_cons hcomma hd]
    exact ih harg

theorem IsArgument.outerCommas_eq {arg : List String} (h : IsArgument arg) :
    outerCommas 0 arg = 0 := by
  have hall := IsArgumentFrom.outerCommas_append h []
  rwa [List.append_nil] at hall

/-- there is one comma less than there are arguments -/
theorem outerCommas_commas {arg : List String} {args : List (List String)}
    (h : ∀ a ∈ arg :: args, IsArgument a) : outerCommas 0 (commas (arg :: args)) = args.length := by
  induction args generalizing arg with
  | nil =>
    rw [commas_singleton]
    exact (h arg List.mem_cons_self).outerCommas_eq
  | cons next args ih =>
    obtain ⟨harg, hargs⟩ := List.forall_mem_cons.mp h
    rw [commas_cons_cons, IsArgumentFrom.outerCommas_append harg, outerCommas_comma, ih hargs,
      List.length_cons]

/-! ## what the bracket encloses and its arguments -/

/-- the tokens behind a comma in front of them, if there is one -/
def dropComma (ts : List String) : List String := if ts.head? = some "," then ts.tail else ts

namespace IsArgumentList

variable {args : List (List String)} {inner : List String}

theorem head_ne_comma {t : String} {arg : List String} (h : IsArgument (t :: arg)) : t ≠ "," := by
  obtain ⟨hcomma, -⟩ := h
  exact fun ht => hcomma ⟨ht, rfl⟩

theorem commas_eq (h : IsArgumentList args inner) : commas args = dropComma inner := by
  cases h with
  | none => rfl
  | @plain t arg args h =>
    have ht : t ≠ "," := head_ne_comma (h _ List.mem_cons_self)
    rw [dropComma, commas_cons_token, List.head?_cons, if_neg (fun he => ht (Option.some.inj he))]
  | behindComma => rfl

/-- an argument for each comma, and one more if the first argument does not stand behind a comma -/
theorem length_eq (h : IsArgumentList args inner) :
    args.length =
      outerCommas 0 inner + if inner = [] ∨ inner.head? = some "," then 0 else 1 := by
  cases h with
  | none => rfl
  | @plain t arg args h =>
    have ht : t ≠ "," := head_ne_comma (h _ List.mem_cons_self)
    rw [outerCommas_commas h, commas_cons_token, List.head?_cons, if_neg, List.length_cons]
    rintro (he | he)
    · exact absurd he (List.cons_ne_nil _ _)
    · exact ht (Option.some.inj he)
  | behindComma h =>
    rw [outerCommas_comma, outerCommas_commas h, if_pos (.inr rfl), List.length_cons, Nat.add_zero]

end IsArgumentList

/-- where the one scan ends, the other ends too -/
theorem arguments_of_enclosed {ts inner rest : List String}
    (h : Bracket.round.enclosed 0 ts = some (inner, rest)) :
    ∃ args, arguments ts = some (args, rest) ∧ IsArgumentList args inner := by
  cases ha : arguments ts with
  | none => exact absurd (h.symm.trans (arguments_eq_none.mp ha)) (by simp)
  | some p =>
    obtain ⟨args, rest'⟩ := p
    obtain ⟨inner', hlist, hts⟩ := arguments_eq_some_iff.mp ha
    -- the arguments are those of the tokens up to the closer that ends them
    have hinner' := Bracket.enclosed_eq_some_iff.mpr ⟨")", rfl, hlist.depthOver, hts⟩
    obtain ⟨rfl, rfl⟩ := Prod.mk.inj (Option.some.inj (h.symm.trans hinner'))
    exact ⟨args, rfl, hlist⟩

/-- From any place, the arguments are found just if the closer is, the cursor is then at the same
place, and where there is no closer both reads fail alike.  The arguments with commas between them
are the enclosed tokens, but for a comma in front of the first one.  No argument has a comma outside
its own brackets, and there is one for each of these commas of the enclosed tokens and one more, unless
the tokens are none or begin with a comma. -/
theorem takeArguments_matches_takeEnclosed (c : Cursor) :
    c.takeArguments.2 = (c.takeEnclosed .round).2 ∧
      match c.takeArguments.1, (c.takeEnclosed .round).1 with
      | .ok args, .ok inner =>
        commas (args.map Line.tokens) = dropComma inner.tokens ∧
          (∀ arg ∈ args, outerCommas 0 arg.tokens = 0) ∧
          args.length = outerCommas 0 inner.tokens +
            if inner.tokens = [] ∨ inner.tokens.head? = some "," then 0 else 1
      | .error u, .error v => u = v
      | _, _ => False := by
  rw [Cursor.takeArguments, Cursor.takeEnclosed]
  cases he : Bracket.round.enclosed 0 c.ahead with
  | none =>
    rw [arguments_eq_none.mpr he]
    exact ⟨rfl, rfl⟩
  | some p =>
    obtain ⟨inner, rest⟩ := p
    obtain ⟨args, ha, hlist⟩ := arguments_of_enclosed he
    have htokens : (args.map fun ts => Line.mk ts c.number).map Line.tokens = args := by
      rw [List.map_map]
      exact List.map_id args
    rw [ha]
    refine ⟨rfl, ?_, ?_, ?_⟩
    · rw [htokens]
      exact hlist.commas_eq
    · intro line hline
      obtain ⟨arg, harg, rfl⟩ := List.mem_map.mp hline
      exact (hlist.isArgument arg harg).outerCommas_eq
    · rw [List.length_map]
      exact hlist.length_eq

/-- the first comma ends no argument, the last one does, and the inner bracket keeps its own -/
example :
    arguments [",", "f", "(", "a", ",", "b", ")", ",", ")", "+"] =
      some ([["f", "(", "a", ",", "b", ")"], []], ["+"]) := rfl

end Markup
