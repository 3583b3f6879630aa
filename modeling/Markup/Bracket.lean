import Markup.Token

/-!
# Brackets

A bracket encloses the tokens up to its partner.  The scans below run just after an opener, over
the tokens that follow it, and count in `depth` the brackets that have been opened since:

* `Bracket.enclosed`   what a bracket encloses, and what follows its closer;
* `arguments`          the same for a round bracket, cut at the commas of depth 0;
* `upToStop`           the tokens up to a stop or the closer, whichever comes first;
* `unclosed?`          the first bracket of a token list that has no partner.

A scan for the partner of a round bracket counts round brackets only.  A scan for the partner of a
square one counts both kinds, and takes a closer of either kind for the partner of any opener.
Each scan gives back the tokens it did not read, and these are fewer than it was given
(`Bracket.length_of_enclosed`).
-/

namespace Markup

/-! ## the two kinds -/

inductive Bracket where
  | round
  | square
  deriving DecidableEq, Repr

namespace Bracket

def closer : Bracket → String
  | round => ")"
  | square => "]"

def ofOpener? (token : String) : Option Bracket :=
  if token = "(" then some round else if token = "[" then some square else none

/-- the token counts as an opener in a scan for the partner of this bracket -/
def opens : Bracket → String → Bool
  | round, token => token == "("
  | square, token => token == "(" || token == "["

/-- the token counts as a closer in a scan for the partner of this bracket -/
def closes : Bracket → String → Bool
  | round, token => token == ")"
  | square, token => token == ")" || token == "]"

/-- the depth after one more token, or `none` if the token closes the enclosing bracket -/
def depthAfter (b : Bracket) (depth : Nat) (token : String) : Option Nat :=
  if b.opens token then some (depth + 1)
  else if b.closes token then
    match depth with
    | 0 => none
    | depth + 1 => some depth
  else some depth

/-! ## what a bracket encloses -/

/-- the tokens up to the closer of the enclosing bracket, and the tokens after it -/
def enclosed (b : Bracket) : Nat → List String → Option (List String × List String)
  | _, [] => none
  | depth, t :: ts =>
    match b.depthAfter depth t with
    | none => some ([], ts)
    | some depth => (b.enclosed depth ts).map fun (inner, rest) => (t :: inner, rest)

theorem enclosed_nil (b : Bracket) (depth : Nat) : b.enclosed depth [] = none := rfl

theorem enclosed_cons_of_none {b : Bracket} {depth : Nat} {t : String}
    (h : b.depthAfter depth t = none) (ts : List String) :
    b.enclosed depth (t :: ts) = some ([], ts) := by
  rw [enclosed, h]

theorem enclosed_cons_of_some {b : Bracket} {depth d : Nat} {t : String}
    (h : b.depthAfter depth t = some d) (ts : List String) :
    b.enclosed depth (t :: ts) = (b.enclosed d ts).map fun (inner, rest) => (t :: inner, rest) := by
  rw [enclosed, h]

/-- the enclosed tokens, the closer and the rest are the tokens that were scanned -/
theorem append_of_enclosed {b : Bracket} {depth : Nat} {ts inner rest : List String}
    (h : b.enclosed depth ts = some (inner, rest)) : ∃ t, ts = inner ++ t :: rest := by
  induction ts generalizing depth inner with
  | nil => rw [enclosed_nil] at h; exact absurd h (by simp)
  | cons t ts ih =>
    cases hd : b.depthAfter depth t with
    | none =>
      rw [enclosed_cons_of_none hd] at h
      obtain ⟨rfl, rfl⟩ := Prod.mk.inj (Option.some.inj h)
      exact ⟨t, rfl⟩
    | some d =>
      rw [enclosed_cons_of_some hd] at h
      obtain ⟨⟨inner', rest'⟩, he, hp⟩ := Option.map_eq_some_iff.mp h
      obtain ⟨rfl, rfl⟩ := Prod.mk.inj hp
      obtain ⟨u, hu⟩ := ih he
      exact ⟨u, by rw [hu, List.cons_append]⟩

theorem length_of_enclosed {b : Bracket} {depth : Nat} {ts inner rest : List String}
    (h : b.enclosed depth ts = some (inner, rest)) :
    inner.length + rest.length + 1 = ts.length := by
  obtain ⟨t, rfl⟩ := append_of_enclosed h
  rw [List.length_append, List.length_cons, Nat.add_assoc]

end Bracket

/-! ## arguments -/

/-- the argument being read, the arguments after it, and the tokens after the closer -/
def argumentsFrom :
    Nat → List String → Option (List String × List (List String) × List String)
  | _, [] => none
  | depth, t :: ts =>
    match Bracket.round.depthAfter depth t with
    | none => some ([], [], ts)
    | some d =>
      if t = "," ∧ depth = 0 then
        (argumentsFrom d ts).map fun (arg, args, rest) => ([], arg :: args, rest)
      else
        (argumentsFrom d ts).map fun (arg, args, rest) => (t :: arg, args, rest)

/-- the arguments of a round bracket, and the tokens after its closer.  An empty bracket has no
arguments; a comma right after the opener begins the first argument and does not end one. -/
def arguments : List String → Option (List (List String) × List String)
  | [] => none
  | t :: ts =>
    if t = ")" then some ([], ts)
    else
      (argumentsFrom 0 (if t = "," then ts else t :: ts)).map
        fun (arg, args, rest) => (arg :: args, rest)

/-! ## up to a stop -/

/-- the tokens up to the first one that is `stop` or closes the enclosing round bracket, and the
tokens after it.  With `outer`, a `stop` counts only at depth 0, the token itself counted. -/
def upToStop (stop : String) (outer : Bool) : Nat → List String → List String × List String
  | _, [] => ([], [])
  | depth, t :: ts =>
    match Bracket.round.depthAfter depth t with
    | none => ([], ts)
    | some d =>
      if t = stop ∧ (outer = true → d = 0) then ([], ts)
      else
        let (read, rest) := upToStop stop outer d ts
        (t :: read, rest)

/-! ## the bracket check -/

/-- the first bracket without a partner, a bracket coming before those it encloses and these
before those that follow it.  Closers without an opener do no harm. -/
def unclosed? : List String → Option Bracket
  | [] => none
  | t :: ts =>
    match Bracket.ofOpener? t with
    | none => unclosed? ts
    | some b =>
      match h : b.enclosed 0 ts with
      | none => some b
      | some (inner, rest) =>
        have := Bracket.length_of_enclosed h
        match unclosed? inner with
        | some b => some b
        | none => unclosed? rest
termination_by tokens => tokens.length
decreasing_by all_goals simp only [List.length_cons]; omega

/-- a bracket that has no partner on the line with this number -/
structure Unclosed where
  bracket : Bracket
  line : Nat
  deriving DecidableEq, Repr

def Unclosed.message (u : Unclosed) : String :=
  "Expected a matching '" ++ u.bracket.closer ++ "'"

/-- accepts the tokens of a line if each bracket opened on it is closed on it -/
def requireClosed (line : Nat) (tokens : List String) : Except Unclosed Unit :=
  match unclosed? tokens with
  | some b => .error ⟨b, line⟩
  | none => .ok ()

end Markup
