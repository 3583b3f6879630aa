import Markup.Proofs.Checked.Scans
import Markup.Proofs.Cursor.Session
import Markup.Proofs.Line.Groups

/-!
# Places of tokens

The groups of a line can be found and cut out by the places of their tokens, and the token before a
cursor is the one at the place before it.  Written so, these have no outcome if a place lies outside
the line, or if the scan for the end of a group lowers its counter at zero.  Neither happens
(`Line.folded?_eq`, `Cursor.previous?_eq`), and no operation in a session of a cursor is without
outcome (`Session.run?_eq`).

* `slice?`         a part of a list, by its places;
* `groupEnd?`      the place of the closer of a group;
* `Session.run?`    operations by scans with counters.
-/

namespace Markup

/-! ## groups -/

/-- the part of a list from place `i` on, up to place `j` -/
def slice? (ts : List String) (i j : Nat) : Option (List String) :=
  if i ≤ j ∧ j ≤ ts.length then some ((ts.take j).drop i) else none

/-- the place of the closer at which the counter is zero, for tokens from place `i` on -/
def groupEnd? : Nat → Nat → List String → Option (Option Nat)
  | _, _, [] => some none
  | count, i, t :: ts =>
    (Bracket.round.count? count t).bind fun count =>
      if t = ")" ∧ count = 0 then some (some i) else groupEnd? count (i + 1) ts

theorem le_groupEnd? {count i j : Nat} {ts : List String}
    (h : groupEnd? count i ts = some (some j)) : i ≤ j := by
  induction ts generalizing count i with
  | nil => exact absurd h nofun
  | cons t ts ih =>
    rw [groupEnd?] at h
    obtain ⟨d, -, hd⟩ := Option.bind_eq_some_iff.mp h
    split at hd
    · exact Nat.le_of_eq (Option.some.inj (Option.some.inj hd))
    · exact Nat.le_of_succ_le (ih hd)

theorem groupEnd?_eq (depth i : Nat) (ts : List String) : groupEnd? (depth + 1) i ts =
    some ((Bracket.round.enclosed depth ts).map fun (inner, _) => i + inner.length) := by
  induction ts generalizing depth i with
  | nil => rfl
  | cons t ts ih =>
    rw [groupEnd?]
    cases hd : Bracket.round.depthAfter depth t with
    | none =>
      have ht : t = ")" := beq_iff_eq.mp (Bracket.depthAfter_eq_none.mp hd).2
      rw [Bracket.count?_of_none hd, Bracket.enclosed_cons_of_none hd, Option.bind_some, if_pos ⟨ht, rfl⟩]
      rfl
    | some d =>
      have hnext : ∀ inner : List String, i + 1 + inner.length = i + (t :: inner).length := by
        intro inner
        rw [List.length_cons]
        omega
      rw [Bracket.count?_of_some hd, Bracket.enclosed_cons_of_some hd, Option.bind_some,
        if_neg fun h => Nat.succ_ne_zero d h.2, ih, Option.map_map]
      simp only [hnext]
      rfl

/-- the tokens from place `i` on with every group folded -/
def foldFrom? (ts : List String) (i : Nat) : Option (List String) :=
  if _hi : i < ts.length then
    ts[i]?.bind fun t =>
      if t ≠ "(" then (foldFrom? ts (i + 1)).map (t :: ·)
      else
        match h : groupEnd? 0 i (ts.drop i) with
        | none => none
        | some none => slice? ts i ts.length
        | some (some j) =>
          have := le_groupEnd? h
          (slice? ts i (j + 1)).bind fun group =>
            (foldFrom? ts (j + 1)).map (groupText group :: ·)
  else some []
termination_by ts.length - i

section
variable {ts : List String} {i : Nat}

theorem foldFrom?_token {t : String} (h : ts[i]? = some t) (ht : t ≠ "(") :
    foldFrom? ts i = (foldFrom? ts (i + 1)).map (t :: ·) := by
  obtain ⟨hi, -⟩ := List.getElem?_eq_some_iff.mp h
  rw [foldFrom?, dif_pos hi, h, Option.bind_some, if_pos ht]

theorem foldFrom?_group {j : Nat} (h : ts[i]? = some "(")
    (hj : groupEnd? 0 i (ts.drop i) = some (some j)) :
    foldFrom? ts i = (slice? ts i (j + 1)).bind fun group =>
      (foldFrom? ts (j + 1)).map (groupText group :: ·) := by
  obtain ⟨hi, -⟩ := List.getElem?_eq_some_iff.mp h
  rw [foldFrom?, dif_pos hi, h, Option.bind_some, if_neg (not_not_intro rfl)]
  split
  · next hn => exact absurd (hj.symm.trans hn) nofun
  · next hn => exact absurd (hj.symm.trans hn) nofun
  · next j' hj' =>
    obtain rfl := Option.some.inj (Option.some.inj (hj.symm.trans hj'))
    rfl

theorem foldFrom?_unclosed (h : ts[i]? = some "(") (hj : groupEnd? 0 i (ts.drop i) = some none) :
    foldFrom? ts i = slice? ts i ts.length := by
  obtain ⟨hi, -⟩ := List.getElem?_eq_some_iff.mp h
  rw [foldFrom?, dif_pos hi, h, Option.bind_some, if_neg (not_not_intro rfl)]
  split
  · next hn => exact absurd (hj.symm.trans hn) nofun
  · rfl
  · next hn => exact absurd (hj.symm.trans hn) nofun

theorem slice?_append (before part behind : List String) :
    slice? (before ++ (part ++ behind)) before.length (before.length + part.length) = some part := by
  have hlen : before.length ≤ before.length + part.length ∧
      before.length + part.length ≤ (before ++ (part ++ behind)).length := by
    rw [List.length_append, List.length_append]
    omega
  rw [slice?, if_pos hlen, ← List.append_assoc, List.take_left' List.length_append, List.drop_left]

end

section
variable (before : List String) (t : String) (ts : List String)

theorem getElem?_behind : (before ++ t :: ts)[before.length]? = some t := by
  rw [List.getElem?_append_right (Nat.le_refl _), Nat.sub_self, List.getElem?_cons_zero]

theorem groupEnd?_open : groupEnd? 0 before.length ((before ++ "(" :: ts).drop before.length) =
    some ((Bracket.round.enclosed 0 ts).map fun (inner, _) => before.length + 1 + inner.length) := by
  rw [List.drop_left, groupEnd?, Bracket.count?_of_opens rfl, Option.bind_some,
    if_neg fun h => Nat.succ_ne_zero 0 h.2, groupEnd?_eq]

theorem foldFrom?_eq :
    foldFrom? (before ++ ts) before.length = some (foldGroups ts) := by
  induction ts using groups_induction generalizing before with
  | nil =>
    rw [foldFrom?, dif_neg (by rw [List.append_nil]; exact Nat.lt_irrefl _), foldGroups_nil]
  | token t ts ht ih =>
    have hnext := ih (before ++ [t])
    rw [List.append_assoc, List.length_append] at hnext
    rw [foldFrom?_token (getElem?_behind before t ts) ht, foldGroups_token ht]
    exact congrArg (Option.map (t :: ·)) hnext
  | group inner rest hd ih =>
    have hend := groupEnd?_open before (inner ++ ")" :: rest)
    rw [enclosed_round_eq_some_iff.mpr ⟨hd, rfl⟩] at hend
    have hlines : "(" :: (inner ++ ")" :: rest) = "(" :: (inner ++ [")"]) ++ rest := by simp
    have hlen : before.length + 1 + inner.length + 1 =
        before.length + ("(" :: (inner ++ [")"])).length := by
      rw [List.length_cons, List.length_append, List.length_singleton]
      omega
    have hnext := ih (before ++ "(" :: (inner ++ [")"]))
    rw [List.append_assoc, List.length_append] at hnext
    have hfold := foldGroups_group hd rest
    rw [hlines] at hfold
    rw [foldFrom?_group (getElem?_behind before _ _) hend, hlen, hlines, slice?_append,
      Option.bind_some, hnext, hfold]
    rfl
  | unclosed ts h =>
    have hend := groupEnd?_open before ts
    rw [h] at hend
    -- the part up to the end of the line is a slice with nothing behind it
    have hslice := slice?_append before ("(" :: ts) []
    rw [List.append_nil, ← List.length_append] at hslice
    rw [foldFrom?_unclosed (getElem?_behind before _ _) hend, hslice, foldGroups_unclosed h]

end

def Line.folded? (line : Line) : Option Line :=
  (foldFrom? line.tokens 0).map fun ts => { line with tokens := ts }

theorem Line.folded?_eq (line : Line) : line.folded? = some line.folded := by
  rw [folded?]
  exact congrArg (Option.map _) (foldFrom?_eq [] line.tokens)

/-! ## cursors -/

namespace Cursor

/-- the token before the cursor, by its place -/
def previous? (c : Cursor) : Option String :=
  if c.position = 0 then some "" else c.position.ppred.bind fun i => c.line.tokens[i]?

theorem previous?_eq (c : Cursor) : c.previous? = some c.previous := by
  obtain ⟨passed, ahead, n⟩ := c
  cases passed with
  | nil => rfl
  | cons t passed =>
    have hne : ¬(Cursor.mk (t :: passed) ahead n).position = 0 := Nat.succ_ne_zero passed.length
    rw [previous?, if_neg hne]
    show ((t :: passed).reverse ++ ahead)[passed.length]? = some t
    have hlen : passed.length = passed.reverse.length := List.length_reverse.symm
    rw [List.reverse_cons, List.append_assoc, hlen]
    exact getElem?_behind passed.reverse t ahead

def takeLine? (c : Cursor) (stop : String) (outer : Bool) : Option (Line × Cursor) :=
  (upToStop? stop outer 1 c.ahead).map fun (read, rest) => (⟨read, c.number⟩, c.skipTo rest)

def takeEnclosed? (c : Cursor) (b : Bracket) : Option (Except Unclosed Line × Cursor) :=
  (b.enclosed? 1 c.ahead).map fun
    | some (inner, rest) => (.ok ⟨inner, c.number⟩, c.skipTo rest)
    | none => (.error ⟨b, c.number⟩, c.skipTo [])

def takeArguments? (c : Cursor) : Option (Except Unclosed (List Line) × Cursor) :=
  (arguments? [] 1 c.ahead).map fun
    | some (args, rest) => (.ok (args.map (⟨·, c.number⟩)), c.skipTo rest)
    | none => (.error ⟨.round, c.number⟩, c.skipTo [])

def requireClosed? (c : Cursor) : Option (Except Unclosed Unit) :=
  (unpaired? c.ahead).map fun
    | some b => .error ⟨b, c.number⟩
    | none => .ok ()

variable (c : Cursor)

theorem takeLine?_eq (stop : String) (outer : Bool) :
    c.takeLine? stop outer = some (c.takeLine stop outer) := by
  rw [takeLine?, upToStop?_eq]
  rfl

theorem takeEnclosed?_eq (b : Bracket) : c.takeEnclosed? b = some (c.takeEnclosed b) := by
  rw [takeEnclosed?, b.enclosed?_eq, takeEnclosed]
  cases b.enclosed 0 c.ahead <;> rfl

theorem takeArguments?_eq : c.takeArguments? = some c.takeArguments := by
  rw [takeArguments?, arguments?_eq, takeArguments]
  cases arguments c.ahead <;> rfl

theorem requireClosed?_eq : c.requireClosed? = some c.requireClosed := by
  rw [requireClosed?, unpaired?_eq, requireClosed, Markup.requireClosed]
  cases unclosed? c.ahead <;> rfl

end Cursor

/-! ## sessions -/

namespace Session

open Cursor (Operation Answer)

/-- one operation, its scans with counters and places -/
def step? (s : Session) : Operation → Option (Answer × Session)
  | .previous => s.cursor.previous?.map fun t => (.text t, s)
  | .takeLine stop outer => (s.cursor.takeLine? stop outer).map (s.read .line)
  | .takeEnclosed b => (s.cursor.takeEnclosed? b).map (s.read .enclosed)
  | .takeArguments => s.cursor.takeArguments?.map (s.read .arguments)
  | .requireClosed => s.cursor.requireClosed?.map fun result => (.closed result, s)
  | o => some (s.step o)

def run? (s : Session) : List Operation → Option (List Answer × Session)
  | [] => some ([], s)
  | o :: os =>
    (s.step? o).bind fun (answer, s) =>
      (s.run? os).map fun (answers, s) => (answer :: answers, s)

theorem step?_eq (s : Session) (o : Operation) : s.step? o = some (s.step o) := by
  cases o with
  | previous => exact congrArg (Option.map _) s.cursor.previous?_eq
  | takeLine stop outer => exact congrArg (Option.map _) (s.cursor.takeLine?_eq stop outer)
  | takeEnclosed b => exact congrArg (Option.map _) (s.cursor.takeEnclosed?_eq b)
  | takeArguments => exact congrArg (Option.map _) s.cursor.takeArguments?_eq
  | requireClosed => exact congrArg (Option.map _) s.cursor.requireClosed?_eq
  | _ => rfl

theorem run?_eq (s : Session) (os : List Operation) : s.run? os = some (s.run os) := by
  induction os generalizing s with
  | nil => rfl
  | cons o os ih =>
    rw [run?, step?_eq, Option.bind_some]
    exact congrArg (Option.map _) (ih (s.step o).2)

end Session
end Markup
