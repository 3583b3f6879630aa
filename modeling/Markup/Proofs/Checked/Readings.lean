import Markup.Block
import Markup.Proofs.Block.Extent
import Markup.Proofs.Checked.Lines

/-!
# Readings with a counter for the open blocks

The search for the declarations of a source and the reading of a block keep the number of open blocks
in a counter, which is raised at an opener and lowered at a closer.  Written out with a counter that
cannot be lowered at zero, both have an outcome for all lines, and it is the same
(`Outline.ofLines?_eq`, `Header.build?_eq`).  So has all that is done with a line
(`checked_readings`).
-/

namespace Markup

/-! ## outlines -/

/-- the counter behind a line outside and inside blocks -/
def depthAfter? (depth : Nat) (line : Line) : Option Nat :=
  if line.first = "element" ∧ depth = 0 then some (if line.opens then depth + 1 else depth)
  else if line.first = "const" ∧ depth = 0 then some depth
  else if line.opens then some (depth + 1)
  else if line.closes then if depth = 0 then some depth else depth.ppred
  else some depth

theorem ppred_of_ne_zero {depth : Nat} (h : depth ≠ 0) : depth.ppred = some (depth - 1) := by
  cases depth with
  | zero => exact absurd rfl h
  | succ depth => rfl

theorem depthAfter?_eq (depth : Nat) (line : Line) :
    depthAfter? depth line = some (depthAfter depth line) := by
  unfold depthAfter? depthAfter
  by_cases he : line.first = "element" ∧ depth = 0
  · have hk : ¬(depth = 0 ∧ line.first = "const") := by
      rw [he.1]
      exact fun hk => absurd hk.2 (by decide)
    rw [if_pos he, if_neg hk, he.2]
    split
    · rfl
    · split <;> rfl
  · rw [if_neg he]
    by_cases hk : depth = 0 ∧ line.first = "const"
    · rw [if_pos ⟨hk.2, hk.1⟩, if_pos hk, hk.1]
    · rw [if_neg fun h => hk ⟨h.2, h.1⟩, if_neg hk]
      split
      · rfl
      · split
        · by_cases hd : depth = 0
          · rw [if_pos hd, hd]
          · rw [if_neg hd, ppred_of_ne_zero hd]
        · rfl

namespace Outline

variable (catalog : Catalog) (file : String)

def ofLinesFrom? (depth index : Nat) : List Line → Option Outline
  | [] => some (atEnd depth index)
  | line :: lines =>
    (depthAfter? depth line).bind fun d =>
      (ofLinesFrom? d (index + 1) lines).map fun o =>
        o.add index (Entry.ofLine catalog file depth index line)

def ofLines? (lines : List Line) : Option Outline := ofLinesFrom? catalog file 0 0 lines

theorem ofLinesFrom?_eq (depth index : Nat) (lines : List Line) :
    ofLinesFrom? catalog file depth index lines =
      some (ofLinesFrom catalog file depth index lines) := by
  induction lines generalizing depth index with
  | nil => rfl
  | cons line lines ih =>
    rw [ofLinesFrom?, depthAfter?_eq, Option.bind_some, ih]
    rfl

theorem ofLines?_eq (lines : List Line) :
    ofLines? catalog file lines = some (ofLines catalog file lines) :=
  ofLinesFrom?_eq catalog file 0 0 lines

end Outline

/-! ## blocks -/

/-- a reading with an outcome, followed by another one that needs its result -/
def Traced.bind? {α β : Type} (r? : Option (Traced α)) (f : α → Option (Traced β)) :
    Option (Traced β) :=
  r?.bind fun r =>
    match r.result with
    | .ok a => (f a).map (Traced.after r.events)
    | .error bracket => some ⟨r.events, .error bracket⟩

theorem Traced.bind?_eq {α β : Type} {r? : Option (Traced α)} {r : Traced α} (hr : r? = some r)
    {f? : α → Option (Traced β)} {f : α → Traced β} (hf : ∀ a, f? a = some (f a)) :
    Traced.bind? r? f? = some (r.bind f) := by
  rw [hr, Traced.bind?, Option.bind_some, Traced.bind]
  cases r.result with
  | ok a => simp only [hf, Option.map_some]
  | error b => rfl

/-- the element with the statements of a block, read with a counter for the blocks that are open in
it -/
def readBlock? (catalog : Catalog) (isRoot : Bool) (e : Element) (depth : Nat) (detached : Bool)
    (index : Nat) : List Line → Option (Traced Element)
  | [] => some (.pure e)
  | line :: lines => Option.map (Traced.after [.line index]) <|
    if line.first = blockClose then
      if depth = 0 then some (.pure e)
      else
        depth.ppred.bind fun depth =>
          readBlock? catalog isRoot e depth detached (index + 1) lines
    else
      let behind := if line.opens then depth + 1 else depth
      if depth ≠ 0 then readBlock? catalog isRoot e behind detached (index + 1) lines
      else if detached ∧ line.isLoneOpen then
        readBlock? catalog isRoot e (depth + 1) false (index + 1) lines
      else
        match Statement.ofLine isRoot line with
        | .property name value =>
          readBlock? catalog isRoot (e.addProperty ⟨name, value⟩) behind false (index + 1) lines
        | .declareVariable name value =>
          readBlock? catalog isRoot (e.addVariable name ⟨value, .unresolved⟩) behind false
            (index + 1) lines
        | .rejected problem =>
          (readBlock? catalog isRoot e behind false (index + 1) lines).map
            (Traced.after [.problem problem])
        | .unclosed bracket => some (.abandon bracket)
        | .child typeName name? detached =>
          let child := Element.ofHeader catalog typeName name?
          let body :=
            if detached then
              match lines with
              | opener :: body =>
                if opener.isLoneOpen then readBlock? catalog false child 0 false (index + 2) body
                else some (.pure child)
              | [] => some (.pure child)
            else readBlock? catalog false child 0 false (index + 1) lines
          Traced.bind? body fun child =>
            readBlock? catalog isRoot (e.addChild child) behind detached (index + 1) lines

section
variable (catalog : Catalog)

def readChild? (child : Element) (detached : Bool) (index : Nat) (lines : List Line) :
    Option (Traced Element) :=
  if detached then
    match lines with
    | opener :: body =>
      if opener.isLoneOpen then readBlock? catalog false child 0 false (index + 1) body
      else some (.pure child)
    | [] => some (.pure child)
  else readBlock? catalog false child 0 false index lines

variable {catalog}

theorem readChild?_eq {child : Element} {lines : List Line}
    (ih : ∀ n i, readBlock? catalog false child 0 false i (lines.drop n) =
      some (readBlock catalog false child 0 false i (lines.drop n)))
    (detached : Bool) (index : Nat) :
    readChild? catalog child detached index lines =
      some (readChild catalog child detached index lines) := by
  unfold readChild? readChild
  cases detached with
  | false => exact ih 0 index
  | true =>
    cases lines with
    | nil => rfl
    | cons opener body =>
      simp only [if_true]
      by_cases ho : opener.isLoneOpen = true
      · rw [if_pos ho, if_pos ho]
        exact ih 1 (index + 1)
      · rw [if_neg ho, if_neg ho]

theorem readBlock?_eq (isRoot : Bool) (e : Element) (depth : Nat) (detached : Bool) (index : Nat)
    (lines : List Line) : readBlock? catalog isRoot e depth detached index lines =
      some (readBlock catalog isRoot e depth detached index lines) := by
  match lines with
  | [] => rw [readBlock?, readBlock_nil]
  | line :: lines =>
    have ih : ∀ isRoot e depth detached n i,
        readBlock? catalog isRoot e depth detached i (lines.drop n) =
          some (readBlock catalog isRoot e depth detached i (lines.drop n)) :=
      fun isRoot e depth detached n i => readBlock?_eq isRoot e depth detached i (lines.drop n)
    cases depth with
    | succ depth =>
      rw [readBlock?, readBlock]
      by_cases hc : line.first = blockClose
      · rw [if_pos hc, if_pos hc, if_neg (Nat.succ_ne_zero depth), Nat.ppred, Option.bind_some]
        exact congrArg (Option.map _) (ih isRoot e depth detached 0 (index + 1))
      · rw [if_neg hc, if_neg hc]
        simp only
        rw [if_pos (Nat.succ_ne_zero depth), if_pos (Nat.succ_ne_zero depth)]
        exact congrArg (Option.map _) (ih isRoot e _ detached 0 (index + 1))
    | zero =>
      have hnext : ∀ e detached,
          readBlock? catalog isRoot e (if line.opens then 0 + 1 else 0) detached (index + 1) lines =
            some (readBlock catalog isRoot e (depthAfterStatement line) detached (index + 1) lines) :=
        fun e detached => ih isRoot e _ detached 0 (index + 1)
      rw [readBlock?, readBlock]
      by_cases hc : line.first = blockClose
      · rw [if_pos hc, if_pos hc, if_pos rfl]
        rfl
      · rw [if_neg hc, if_neg hc]
        simp only
        rw [if_neg (not_not_intro rfl), if_neg (not_not_intro rfl)]
        by_cases hd : detached = true ∧ line.isLoneOpen = true
        · rw [if_pos hd, if_pos hd]
          exact congrArg (Option.map _) (ih isRoot e 1 false 0 (index + 1))
        · rw [if_neg hd, if_neg hd]
          cases Statement.ofLine isRoot line with
          | property name value => exact congrArg (Option.map _) (hnext _ false)
          | declareVariable name value => exact congrArg (Option.map _) (hnext _ false)
          | rejected problem =>
            exact congrArg (fun r => Option.map _ (Option.map _ r)) (hnext e false)
          | unclosed bracket => rfl
          | child typeName name? detached =>
            refine congrArg (Option.map _) (Traced.bind?_eq ?_ fun c => hnext (e.addChild c) detached)
            exact readChild?_eq (ih false _ 0 false) detached (index + 1)
termination_by lines.length
decreasing_by
  rw [List.length_drop, List.length_cons]
  omega

end

def Header.build? (catalog : Catalog) (lines : List Line) (h : Header) : Option (Traced DeclaredElement) :=
  (Traced.bind? (readBlock? catalog true (.bare h.name .userDefined) 0 false (h.start + 1)
      (lines.drop (h.start + 1))) fun root => some (.pure ⟨root, h.file⟩)).map
    (Traced.after [.note (.building h.name h.file)])

theorem Header.build?_eq (catalog : Catalog) (lines : List Line) (h : Header) :
    h.build? catalog lines = some (h.build catalog lines) := by
  rw [build?, Traced.bind?_eq (readBlock?_eq _ _ _ _ _ _) fun _ => rfl]
  rfl

/-- No counter of open brackets or blocks is lowered at zero, and no token is looked for outside its
line: not when the groups of a line are folded, nor by any use of a cursor, nor in the search for the
declarations of a source, nor when the element of a header is read, for whatever lines, catalog, name
of the source and place of the header. -/
theorem checked_readings :
    (∀ line : Line, line.folded? = some line.folded) ∧
    (∀ (line : Line) (os : List Cursor.Operation),
      line.session.run? os = some (line.session.run os)) ∧
    (∀ (catalog : Catalog) (file : String) (lines : List Line),
      Outline.ofLines? catalog file lines = some (Outline.ofLines catalog file lines)) ∧
    ∀ (catalog : Catalog) (lines : List Line) (h : Header),
      h.build? catalog lines = some (h.build catalog lines) :=
  ⟨Line.folded?_eq, fun line os => line.session.run?_eq os, Outline.ofLines?_eq, Header.build?_eq⟩

end Markup
