/-!
# Plain text

A text may hold controls: what a terminal obeys and does not show.  `plainText` is the text without
them; what can be seen remains, and so do tabs, new lines, new pages and returns.

* A control character is a control by itself.  An escape character begins a longer one, which ends
  at its first final character or, for a control string, at its terminator.  A control without an
  end takes the rest of the text along.
* A cancelling character ends any control, and an escape character begins another one.
* A layout character inside an escape or control sequence remains, and so does what follows it up
  to the next control character.  There the sequence goes on, unless a character beyond ASCII came
  in between.

Main statements: nothing but plain characters remains (`isPlain_of_mem_plainChars`), and a text of
plain characters remains as it is (`plainChars_of_isPlain`).
-/

namespace Markup

/-! ## characters -/

/-- the character lays a text out: a tab, a new line, a new page or a return -/
def isLayout (c : Char) : Bool := c = '\t' || c = '\n' || c = '\x0c' || c = '\r'

/-- the character remains in a plain text -/
def isPlain (c : Char) : Bool := isLayout c || (0x20 ≤ c.toNat && c.toNat ≠ 0x7f)

/-! ## controls -/

/-- a control of several characters, as far as it has been read -/
inductive Control where
  /-- an escape character -/
  | escape
  /-- an escape sequence with an intermediate character -/
  | escapeIntermediate
  /-- a control sequence in front of its final character -/
  | sequence
  /-- the beginning of a device control string -/
  | device
  /-- the parameters of a device control string -/
  | deviceParameters
  /-- a device control string with an intermediate character -/
  | deviceIntermediate
  /-- a control string, up to its terminator -/
  | string
  /-- a command for the operating system, up to a bell -/
  | command
  deriving DecidableEq, Repr

namespace Control

/-- the character ends any control at once -/
def isCancel (c : Char) : Bool := c = '\x18' || c = '\x1a'

/-- the character stands between the beginning of a control and its final character -/
def isIntermediate (c : Char) : Bool := 0x20 ≤ c.toNat && c.toNat < 0x30

/-- the character is one of the parameters of a control -/
def isParameter (c : Char) : Bool := 0x30 ≤ c.toNat && c.toNat < 0x40

/-- the character is the final one of a control sequence -/
def isFinal (c : Char) : Bool := 0x40 ≤ c.toNat && c.toNat < 0x7f

/-- one of the bytes of the character is the string terminator -/
def isTerminator (c : Char) : Bool := (String.utf8EncodeChar c).contains 0x9c

/-- layout characters inside the control are kept -/
def keepsLayout : Control → Bool
  | escape | escapeIntermediate | sequence => true
  | _ => false

/-- the control after one more character, or none if it ends with this character -/
def after? : Control → Char → Option Control
  | escape, c =>
    if isIntermediate c then some escapeIntermediate
    else if c = '[' then some sequence
    else if c = 'P' then some device
    else if c = 'X' || c = '^' || c = '_' then some string
    else if c = ']' then some command
    else if isParameter c || isFinal c then none
    else some escape
  | escapeIntermediate, c => if isParameter c || isFinal c then none else some escapeIntermediate
  | sequence, c => if isFinal c then none else some sequence
  | device, c =>
    if isIntermediate c then some deviceIntermediate
    else if isParameter c then some deviceParameters
    else if isFinal c then some string
    else some device
  | deviceParameters, c =>
    if isIntermediate c then some deviceIntermediate
    else if isFinal c || isParameter c && '<' ≤ c then some string
    else some deviceParameters
  | deviceIntermediate, c =>
    if isParameter c || isFinal c then some string else some deviceIntermediate
  | string, c => if isTerminator c then none else some string
  | command, c => if c = '\x07' then none else some command

end Control

/-! ## texts -/

/-- where a text stands -/
inductive TextState where
  /-- in plain text, perhaps with a control that goes on later -/
  | plain (suspended : Option Control)
  /-- in a control -/
  | control (current : Control)
  deriving DecidableEq, Repr

namespace TextState

def start : TextState := plain none

/-- the state inside a control, or outside if there is none -/
def ofControl? : Option Control → TextState
  | some current => control current
  | none => start

/-- a character in some state remains in a plain text -/
def keeps : TextState → Char → Bool
  | plain _, c => isPlain c
  | control current, c => current.keepsLayout && isLayout c

/-- the state after a character -/
def after (s : TextState) (c : Char) : TextState :=
  if Control.isCancel c then start
  else if c = '\x1b' then control .escape
  else
    match s with
    | plain suspended =>
      if isPlain c then (if c.toNat < 0x80 then plain suspended else start)
      else ofControl? suspended
    | control current =>
      if s.keeps c then plain (some current) else ofControl? (current.after? c)

end TextState

/-- the characters of a text that remain in it as plain text -/
def plainChars : TextState → List Char → List Char
  | _, [] => []
  | s, c :: cs => if s.keeps c then c :: plainChars (s.after c) cs else plainChars (s.after c) cs

/-- the text without its controls -/
def plainText (text : String) : String := String.ofList (plainChars .start text.toList)

/-! ## what remains -/

theorem plainChars_cons_of_keeps {s : TextState} {c : Char} (h : s.keeps c = true)
    (cs : List Char) : plainChars s (c :: cs) = c :: plainChars (s.after c) cs := by
  rw [plainChars, if_pos h]

theorem plainChars_cons_of_not_keeps {s : TextState} {c : Char} (h : s.keeps c = false)
    (cs : List Char) : plainChars s (c :: cs) = plainChars (s.after c) cs := by
  rw [plainChars, h, if_neg Bool.false_ne_true]

theorem isPlain_of_keeps {s : TextState} {c : Char} (h : s.keeps c = true) : isPlain c = true := by
  cases s with
  | plain _ => exact h
  | control _ => rw [isPlain, ((Bool.and_eq_true _ _).mp h).2, Bool.true_or]

theorem isPlain_of_mem_plainChars {s : TextState} {cs : List Char} {c : Char}
    (h : c ∈ plainChars s cs) : isPlain c = true := by
  induction cs generalizing s with
  | nil => exact absurd h List.not_mem_nil
  | cons d cs ih =>
    cases hd : s.keeps d with
    | true =>
      rw [plainChars_cons_of_keeps hd] at h
      rcases List.mem_cons.mp h with rfl | h
      · exact isPlain_of_keeps hd
      · exact ih h
    | false =>
      rw [plainChars_cons_of_not_keeps hd] at h
      exact ih h

theorem not_isPlain_escape : isPlain '\x1b' = false := by decide

theorem not_isPlain_of_isCancel {c : Char} (h : Control.isCancel c = true) : isPlain c = false := by
  rcases (Bool.or_eq_true _ _).mp h with h | h <;> rw [of_decide_eq_true h] <;> decide

theorem after_start_of_isPlain {c : Char} (h : isPlain c = true) :
    TextState.start.after c = .start := by
  have h₁ : ¬ Control.isCancel c = true := fun hc =>
    Bool.false_ne_true ((not_isPlain_of_isCancel hc).symm.trans h)
  have h₂ : c ≠ '\x1b' := by
    rintro rfl
    exact Bool.false_ne_true (not_isPlain_escape.symm.trans h)
  unfold TextState.after
  rw [if_neg h₁, if_neg h₂]
  simp only [TextState.start, h, if_true, ite_self]

theorem plainChars_of_isPlain {cs : List Char} (h : ∀ c ∈ cs, isPlain c = true) :
    plainChars .start cs = cs := by
  induction cs with
  | nil => rfl
  | cons c cs ih =>
    have hc : TextState.start.keeps c = true := h c List.mem_cons_self
    rw [plainChars_cons_of_keeps hc, after_start_of_isPlain hc,
      ih fun d hd => h d (List.mem_cons_of_mem c hd)]

end Markup
