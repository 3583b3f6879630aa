import Markup.Proofs.Echo

/-!
# Reports in order

What a reading tells is what it reports, and the bracket that ends it (`Traced.told`).  Events tell of
some lines in order if there is at most one report of each of these lines, the reports are in the
order of the lines, and each of them names a fault of its line (`Tells`).  Parts that tell of lines one
behind the other are put together (`Tells.append`), and so are readings (`Tells.bind`).
-/

namespace Markup

/-! ## what a reading tells -/

namespace Traced

variable {α β : Type}

/-- the events of a reading, and the problem that ended it -/
def told (r : Traced α) : List Event :=
  match r.result with
  | .ok _ => r.events
  | .error bracket => r.events ++ [.problem (.unclosedBracket bracket)]

theorem told_of_ok {r : Traced α} {a : α} (h : r.result = .ok a) : r.told = r.events := by
  rw [told, h]

theorem told_of_error {r : Traced α} {b : Unclosed} (h : r.result = .error b) :
    r.told = r.events ++ [.problem (.unclosedBracket b)] := by
  rw [told, h]

theorem told_after (events : List Event) (r : Traced α) :
    (r.after events).told = events ++ r.told := by
  cases h : r.result with
  | ok a => rw [told_of_ok h, told_of_ok (r := r.after events) h]; rfl
  | error b =>
    rw [told_of_error h, told_of_error (r := r.after events) h, ← List.append_assoc]
    rfl

theorem told_bind_of_ok {r : Traced α} {a : α} (h : r.result = .ok a) (f : α → Traced β) :
    (r.bind f).told = r.told ++ (f a).told := by
  have hbind : r.bind f = (f a).after r.events := by rw [bind, h]
  rw [hbind, told_after, told_of_ok h]

theorem told_bind_of_error {r : Traced α} {b : Unclosed} (h : r.result = .error b)
    (f : α → Traced β) : (r.bind f).told = r.told := by
  have hbind : r.bind f = ⟨r.events, .error b⟩ := by rw [bind, h]
  rw [hbind, told_of_error h]
  rfl

end Traced

/-! ## telling in order -/

/-- the events report faults of the lines from `first` up to `stop`, in the order of these lines and
of no line twice -/
structure Tells (fault : Nat → Problem → Prop) (first stop : Nat) (events : List Event) : Prop where
  looksFirst : LooksFirst events
  ascending : (reportsFrom 0 events).Pairwise fun r r' => r.1 < r'.1
  within : ∀ r ∈ reportsFrom 0 events, first ≤ r.1 ∧ r.1 < stop
  faults : ∀ r ∈ reportsFrom 0 events, fault r.1 r.2

section
variable {fault : Nat → Problem → Prop} {first mid stop : Nat} {xs ys : List Event}

theorem tells_nil (fault : Nat → Problem → Prop) (first stop : Nat) : Tells fault first stop [] where
  looksFirst := looksFirst_nil
  ascending := List.Pairwise.nil
  within _ hr := absurd hr List.not_mem_nil
  faults _ hr := absurd hr List.not_mem_nil

theorem Tells.congr (h : Tells fault first stop xs)
    (he : ∀ i, reportsFrom i ys = reportsFrom i xs) : Tells fault first stop ys where
  looksFirst i j := by rw [he, he, h.looksFirst i j]
  ascending := by rw [he]; exact h.ascending
  within := by rw [he]; exact h.within
  faults := by rw [he]; exact h.faults

theorem Tells.mono (h : Tells fault first stop xs) {first' stop' : Nat} (hf : first' ≤ first)
    (hs : stop ≤ stop') : Tells fault first' stop' xs where
  looksFirst := h.looksFirst
  ascending := h.ascending
  within r hr := ⟨Nat.le_trans hf (h.within r hr).1, Nat.lt_of_lt_of_le (h.within r hr).2 hs⟩
  faults := h.faults

theorem Tells.imp (h : Tells fault first stop xs) {fault' : Nat → Problem → Prop}
    (hf : ∀ i p, first ≤ i → i < stop → fault i p → fault' i p) : Tells fault' first stop xs where
  looksFirst := h.looksFirst
  ascending := h.ascending
  within := h.within
  faults r hr := hf r.1 r.2 (h.within r hr).1 (h.within r hr).2 (h.faults r hr)

theorem Tells.note (h : Tells fault first stop xs) (note : Note) :
    Tells fault first stop (.note note :: xs) := h.congr fun _ => rfl

theorem Tells.line (h : Tells fault first stop xs) (i : Nat) :
    Tells fault first stop (.line i :: xs) := h.congr fun j => h.looksFirst i j

theorem Tells.problem (h : Tells fault (first + 1) stop xs) (hs : first < stop) {p : Problem}
    (hp : fault first p) : Tells fault first stop (.line first :: .problem p :: xs) := by
  have hreports : ∀ i, reportsFrom i (.line first :: .problem p :: xs) =
      (first, p) :: reportsFrom 0 xs := by
    intro i
    show (first, p) :: reportsFrom first xs = _
    rw [h.looksFirst first 0]
  constructor
  · intro i j
    rw [hreports, hreports]
  · rw [hreports, List.pairwise_cons]
    exact ⟨fun r hr => (h.within r hr).1, h.ascending⟩
  · rw [hreports, List.forall_mem_cons]
    refine ⟨⟨Nat.le_refl first, hs⟩, fun r hr => ?_⟩
    exact ⟨Nat.le_of_succ_le (h.within r hr).1, (h.within r hr).2⟩
  · rw [hreports, List.forall_mem_cons]
    exact ⟨hp, h.faults⟩

/-- what tells of some lines, and then of lines behind them -/
theorem Tells.append (hx : Tells fault first mid xs) (hy : Tells fault mid stop ys)
    (hf : first ≤ mid) (hs : mid ≤ stop) : Tells fault first stop (xs ++ ys) := by
  have hreports : reportsFrom 0 (xs ++ ys) = reportsFrom 0 xs ++ reportsFrom 0 ys := by
    rw [reportsFrom_append, hy.looksFirst (lineAfter 0 xs) 0]
  refine ⟨hx.looksFirst.append hy.looksFirst, ?_, ?_, ?_⟩
  · rw [hreports, List.pairwise_append]
    refine ⟨hx.ascending, hy.ascending, fun r hr r' hr' => ?_⟩
    exact Nat.lt_of_lt_of_le (hx.within r hr).2 (hy.within r' hr').1
  · rw [hreports, List.forall_mem_append]
    exact ⟨(hx.mono (Nat.le_refl _) hs).within, (hy.mono hf (Nat.le_refl _)).within⟩
  · rw [hreports, List.forall_mem_append]
    exact ⟨hx.faults, hy.faults⟩

theorem Tells.bind {α β : Type} {r : Traced α} {f : α → Traced β} (hr : Tells fault first mid r.told)
    (hf : ∀ a, Tells fault mid stop (f a).told) (hm : first ≤ mid) (hs : mid ≤ stop) :
    Tells fault first stop (r.bind f).told := by
  cases h : r.result with
  | ok a =>
    rw [Traced.told_bind_of_ok h]
    exact hr.append (hf a) hm hs
  | error b =>
    rw [Traced.told_bind_of_error h]
    exact hr.mono (Nat.le_refl _) hs

/-- parts that each tell of lines of their own, in the order of these lines -/
theorem tells_flatMap {α : Type} {g : α → List Event} {as : List α} (start finish : α → Nat)
    (hg : ∀ a ∈ as, first ≤ start a ∧ start a ≤ finish a ∧ finish a ≤ stop ∧
      Tells fault (start a) (finish a) (g a))
    (hp : as.Pairwise fun a b => finish a ≤ start b) : Tells fault first stop (as.flatMap g) := by
  induction as generalizing first with
  | nil => exact tells_nil fault first stop
  | cons a as ih =>
    obtain ⟨⟨hfirst, hle, hstop, ha⟩, has⟩ := List.forall_mem_cons.mp hg
    obtain ⟨hnext, hp⟩ := List.pairwise_cons.mp hp
    rw [List.flatMap_cons]
    refine (ha.mono hfirst (Nat.le_refl _)).append (ih ?_ hp) (Nat.le_trans hfirst hle) hstop
    exact fun b hb => ⟨hnext b hb, (has b hb).2⟩

end
end Markup
