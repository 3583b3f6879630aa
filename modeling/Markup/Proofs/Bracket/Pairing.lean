import Markup.Proofs.Bracket.Depth

/-!
# Pairs of brackets

A line that the bracket check accepts has a partner for each of its openers, and pairs of partners do
not cross (`exists_isPairing`).  The partner of a round bracket is a round closer.  The partner of a
square bracket can be a closer of either kind, since the scan for it counts both kinds as one: a
round closer that no opener waits for ends a square bracket (`round_closer_ends_square`).  Where
there is no such closer, in particular in round brackets, the partner of a square bracket is square.

* `IsClosed`       the lines that the check accepts, by the way in which it reads them;
* `IsPairing`      openers and their partners, by place.
-/

namespace Markup

/-! ## accepted lines -/

/-- tokens of which each opener is closed behind tokens of the same form that bring the scan for its
partner back to its depth.  `K` tells which closers a bracket can have. -/
inductive IsClosed (K : Bracket → String → Prop) : List String → Prop
  | nil : IsClosed K []
  | skip {t : String} {ts : List String} (ht : Bracket.ofOpener? t = none) (h : IsClosed K ts) :
      IsClosed K (t :: ts)
  | pair (b : Bracket) {inner rest : List String} {t : String} (hi : IsClosed K inner)
      (hd : b.depthOver 0 inner = some 0) (ht : Bracket.ofOpener? t = none) (hk : K b t)
      (h : IsClosed K rest) : IsClosed K (b.opener :: (inner ++ t :: rest))

/-- a closer that ends the scan for the partner of a bracket -/
def EndsScan (b : Bracket) (t : String) : Prop := b.closes t = true

/-- a closer of the same kind -/
def IsOwnCloser (b : Bracket) (t : String) : Prop := t = b.closer

/-- the check accepts just these lines -/
theorem unclosed?_eq_none_iff {ts : List String} : unclosed? ts = none ↔ IsClosed EndsScan ts := by
  constructor
  · intro h
    match ts with
    | [] => exact .nil
    | t :: ts =>
      cases ho : Bracket.ofOpener? t with
      | none =>
        rw [unclosed?_cons_of_none ho] at h
        exact .skip ho (unclosed?_eq_none_iff.mp h)
      | some b =>
        obtain ⟨inner, rest, he⟩ := exists_enclosed ho h
        have hlen := Bracket.length_of_enclosed he
        rw [unclosed?_cons_of_paired ho he, Option.or_eq_none_iff] at h
        obtain ⟨u, hc, hd, rfl⟩ := Bracket.enclosed_eq_some_iff.mp he
        obtain rfl := Bracket.ofOpener?_eq_some.mp ho
        exact .pair b (unclosed?_eq_none_iff.mp h.1) hd (Bracket.ofOpener?_of_closes hc) hc
          (unclosed?_eq_none_iff.mp h.2)
  · intro h
    induction h with
    | nil => exact unclosed?_nil
    | skip ht _ ih => rw [unclosed?_cons_of_none ht, ih]
    | pair b _ hd _ hk _ ihi ih =>
      rw [unclosed?_pair hd hk, ihi, ih]
      rfl
termination_by ts.length
decreasing_by
  · exact Nat.lt_succ_self _
  all_goals
    rw [List.length_cons]
    omega

/-- a token that is no opener and does not end the scan for a round partner is passed over -/
theorem Bracket.depthAfter_round_zero {t : String} {d : Nat} (ht : Bracket.ofOpener? t = none)
    (hd : Bracket.round.depthAfter 0 t = some d) : Bracket.round.closes t = false ∧ d = 0 := by
  have hopens : Bracket.round.opens t = false := by
    refine Bool.eq_false_iff.mpr fun h => ?_
    obtain rfl : t = Bracket.round.opener := beq_iff_eq.mp h
    exact absurd (Bracket.ofOpener?_opener .round) (by rw [ht]; simp)
  have hcloses : Bracket.round.closes t = false := by
    refine Bool.eq_false_iff.mpr fun h => ?_
    rw [Bracket.depthAfter_zero_of_closes h] at hd
    exact absurd hd (by simp)
  unfold Bracket.depthAfter at hd
  rw [hopens, hcloses] at hd
  exact ⟨hcloses, (Option.some.inj hd).symm⟩

/-- Only a round closer at the depth of the line can close a square bracket: where the scan for a
round partner does not end, every bracket is closed by its own kind. -/
theorem IsClosed.own {ts : List String} (h : IsClosed EndsScan ts) {d : Nat}
    (hd : Bracket.round.depthOver 0 ts = some d) : IsClosed IsOwnCloser ts ∧ d = 0 := by
  induction h generalizing d with
  | nil => exact ⟨.nil, (Option.some.inj hd).symm⟩
  | @skip t ts ht _ ih =>
    obtain ⟨d', hd', hts⟩ := Option.bind_eq_some_iff.mp hd
    obtain ⟨-, rfl⟩ := Bracket.depthAfter_round_zero ht hd'
    exact ⟨.skip ht (ih hts).1, (ih hts).2⟩
  | @pair b inner rest t _ hdi ht hk _ ihi ih =>
    cases b with
    | round =>
      -- the group as a whole leaves the depth as it was
      obtain ⟨hinner, -⟩ := ihi hdi
      have hopen := Bracket.depthAfter_of_opens (b := .round) (Bracket.opens_opener .round) 0
      rw [Bracket.depthOver_cons_of_some hopen,
        Bracket.depthOver_append_of_some (Bracket.depthOver_add hdi 1),
        Bracket.depthOver_cons_of_some (Bracket.depthAfter_succ_of_closes hk 0)] at hd
      obtain ⟨hrest, rfl⟩ := ih hd
      exact ⟨.pair .round hinner hdi ht (beq_iff_eq.mp hk) hrest, rfl⟩
    | square =>
      rw [Bracket.depthOver_cons_of_some (d := 0) rfl, Bracket.depthOver_append] at hd
      obtain ⟨di, hround, hd⟩ := Option.bind_eq_some_iff.mp hd
      obtain ⟨hinner, rfl⟩ := ihi hround
      obtain ⟨dt, hdt, hd⟩ := Option.bind_eq_some_iff.mp hd
      obtain ⟨hcloses, rfl⟩ := Bracket.depthAfter_round_zero ht hdt
      have hown : t = Bracket.square.closer := by
        rcases Bool.or_eq_true_iff.mp hk with h | h
        · exact absurd h (Bool.eq_false_iff.mp hcloses)
        · exact beq_iff_eq.mp h
      obtain ⟨hrest, rfl⟩ := ih hd
      exact ⟨.pair .square hinner hdi ht hown hrest, rfl⟩

/-! ## pairs -/

/-- a pairing of the openers of a line with closers behind them, given by their places.  Every opener
has a partner, no place is used by two pairs, and of two pairs that overlap one is inside the other. -/
structure IsPairing (K : Bracket → String → Prop) (ts : List String) (pairs : List (Nat × Nat)) :
    Prop where
  closes : ∀ p ∈ pairs, p.1 < p.2 ∧
    ∃ b t, ts[p.1]? = some (Bracket.opener b) ∧ ts[p.2]? = some t ∧ K b t
  complete : ∀ i b, ts[i]? = some (Bracket.opener b) → ∃ j, (i, j) ∈ pairs
  once : pairs.Pairwise fun p q => p.1 ≠ q.1 ∧ p.2 ≠ q.2
  nested : ∀ p ∈ pairs, ∀ q ∈ pairs, p.1 < q.1 → q.1 < p.2 → q.2 < p.2

/-- the pairs of tokens that stand `k` places further on -/
def shifted (k : Nat) (pairs : List (Nat × Nat)) : List (Nat × Nat) :=
  pairs.map fun p => (p.1 + k, p.2 + k)

theorem mem_shifted {k : Nat} {pairs : List (Nat × Nat)} {p : Nat × Nat} :
    p ∈ shifted k pairs ↔ ∃ q ∈ pairs, p = (q.1 + k, q.2 + k) := by
  simp [shifted, eq_comm]

theorem shifted_once {pairs : List (Nat × Nat)}
    (h : pairs.Pairwise fun p q => p.1 ≠ q.1 ∧ p.2 ≠ q.2) (k : Nat) :
    (shifted k pairs).Pairwise fun p q => p.1 ≠ q.1 ∧ p.2 ≠ q.2 := by
  refine List.pairwise_map.mpr (h.imp fun hpq => ?_)
  omega

namespace IsPairing

variable {K : Bracket → String → Prop} {ts us : List String} {ps qs : List (Nat × Nat)}

theorem lt_length (h : IsPairing K ts ps) {p : Nat × Nat} (hp : p ∈ ps) :
    p.1 < p.2 ∧ p.2 < ts.length := by
  obtain ⟨hlt, _, _, -, ht, -⟩ := h.closes p hp
  exact ⟨hlt, (List.getElem?_eq_some_iff.mp ht).1⟩

theorem single {t : String} (ht : Bracket.ofOpener? t = none) : IsPairing K [t] [] where
  closes := by simp
  complete i b hi := by
    obtain ⟨rfl, rfl⟩ : i = 0 ∧ t = b.opener := by
      cases i with
      | zero => exact ⟨rfl, Option.some.inj hi⟩
      | succ i => exact absurd hi (by simp)
    rw [b.ofOpener?_opener] at ht
    exact absurd ht (by simp)
  once := .nil
  nested := by simp

theorem append (ht : IsPairing K ts ps) (hu : IsPairing K us qs) :
    IsPairing K (ts ++ us) (ps ++ shifted ts.length qs) where
  closes p hp := by
    rcases List.mem_append.mp hp with hp | hp
    · obtain ⟨hlt, b, t, ho, hc, hk⟩ := ht.closes p hp
      obtain ⟨-, hlen⟩ := ht.lt_length hp
      rw [List.getElem?_append_left (by omega), List.getElem?_append_left hlen]
      exact ⟨hlt, b, t, ho, hc, hk⟩
    · obtain ⟨q, hq, rfl⟩ := mem_shifted.mp hp
      obtain ⟨hlt, b, t, ho, hc, hk⟩ := hu.closes q hq
      rw [List.getElem?_append_right (by omega), List.getElem?_append_right (by omega),
        Nat.add_sub_cancel, Nat.add_sub_cancel]
      exact ⟨by omega, b, t, ho, hc, hk⟩
  complete i b hi := by
    by_cases hlen : i < ts.length
    · rw [List.getElem?_append_left hlen] at hi
      obtain ⟨j, hj⟩ := ht.complete i b hi
      exact ⟨j, List.mem_append_left _ hj⟩
    · rw [List.getElem?_append_right (by omega)] at hi
      obtain ⟨j, hj⟩ := hu.complete _ b hi
      refine ⟨j + ts.length, List.mem_append_right _ (mem_shifted.mpr ⟨_, hj, ?_⟩)⟩
      exact Prod.ext (by simp only; omega) rfl
  once := by
    refine List.pairwise_append.mpr ⟨ht.once, shifted_once hu.once _, fun p hp q' hq' => ?_⟩
    obtain ⟨q, hq, rfl⟩ := mem_shifted.mp hq'
    have hp := ht.lt_length hp
    simp only
    omega
  nested p' hp' q' hq' hlt hin := by
    rcases List.mem_append.mp hp' with hp | hp <;> rcases List.mem_append.mp hq' with hq | hq
    · exact ht.nested p' hp q' hq hlt hin
    · obtain ⟨q, -, rfl⟩ := mem_shifted.mp hq
      have hp := ht.lt_length hp
      simp only at hin
      omega
    · obtain ⟨p, -, rfl⟩ := mem_shifted.mp hp
      have hq := ht.lt_length hq
      simp only at hlt
      omega
    · obtain ⟨p, hps, rfl⟩ := mem_shifted.mp hp
      obtain ⟨q, hqs, rfl⟩ := mem_shifted.mp hq
      have := hu.nested p hps q hqs (by simp only at hlt; omega) (by simp only at hin; omega)
      simp only
      omega

/-- a bracket around a part of a line is a pair around the pairs of this part -/
theorem enclose (h : IsPairing K ts ps) {b : Bracket} {t : String} (hk : K b t)
    (ht : Bracket.ofOpener? t = none) :
    IsPairing K (b.opener :: (ts ++ [t])) ((0, ts.length + 1) :: shifted 1 ps) := by
  -- the tokens behind the opener, by themselves
  have htail : IsPairing K (ts ++ [t]) ps := by simpa [shifted] using h.append (single ht)
  refine ⟨?closes, ?complete, ?once, ?nested⟩
  case closes =>
    intro p hp
    rcases List.mem_cons.mp hp with rfl | hp
    · exact ⟨Nat.succ_pos _, b, t, rfl, by simp, hk⟩
    · obtain ⟨q, hq, rfl⟩ := mem_shifted.mp hp
      obtain ⟨hlt, c, u, ho, hc, hku⟩ := htail.closes q hq
      exact ⟨by simp only; omega, c, u, ho, hc, hku⟩
  case complete =>
    intro i c hi
    cases i with
    | zero => exact ⟨_, List.mem_cons_self⟩
    | succ i =>
      obtain ⟨j, hj⟩ := htail.complete i c hi
      exact ⟨j + 1, List.mem_cons_of_mem _ (mem_shifted.mpr ⟨_, hj, rfl⟩)⟩
  case once =>
    refine List.pairwise_cons.mpr ⟨fun q' hq' => ?_, shifted_once h.once 1⟩
    obtain ⟨q, hq, rfl⟩ := mem_shifted.mp hq'
    have hq := h.lt_length hq
    simp only
    omega
  case nested =>
    intro p' hp' q' hq' hlt hin
    rcases List.mem_cons.mp hp' with rfl | hp <;> rcases List.mem_cons.mp hq' with rfl | hq
    · exact absurd hlt (Nat.lt_irrefl 0)
    · obtain ⟨q, hqs, rfl⟩ := mem_shifted.mp hq
      have hq := h.lt_length hqs
      simp only
      omega
    · exact absurd hlt (Nat.not_lt_zero _)
    · obtain ⟨p, hps, rfl⟩ := mem_shifted.mp hp
      obtain ⟨q, hqs, rfl⟩ := mem_shifted.mp hq
      have := h.nested p hps q hqs (by simp only at hlt; omega) (by simp only at hin; omega)
      simp only
      omega

end IsPairing

/-- the partners that the check finds -/
theorem IsClosed.exists_partners {K : Bracket → String → Prop} {ts : List String}
    (h : IsClosed K ts) : ∃ pairs, IsPairing K ts pairs := by
  induction h with
  | nil => exact ⟨[], by simp, by simp, .nil, by simp⟩
  | skip ht _ ih =>
    obtain ⟨ps, hp⟩ := ih
    exact ⟨_, (IsPairing.single ht).append hp⟩
  | @pair b inner rest t _ _ ht hk _ ihi ih =>
    obtain ⟨ps, hp⟩ := ihi
    obtain ⟨qs, hq⟩ := ih
    have hline := (hp.enclose hk ht).append hq
    rw [List.cons_append, List.append_assoc, List.singleton_append] at hline
    exact ⟨_, hline⟩

/-- No opener of an accepted line is left without a partner, and the partners nest.  A round bracket
has a round partner.  So has a square bracket a square one, if no round closer of the line is left
over by the round brackets. -/
theorem exists_isPairing {n : Nat} {ts : List String} (h : requireClosed n ts = .ok ()) :
    (∃ pairs, IsPairing EndsScan ts pairs) ∧
      (Bracket.round.enclosed 0 ts = none → ∃ pairs, IsPairing IsOwnCloser ts pairs) := by
  have hclosed := unclosed?_eq_none_iff.mp (requireClosed_eq_ok.mp h)
  refine ⟨hclosed.exists_partners, fun hround => ?_⟩
  obtain ⟨d, hd⟩ := Option.ne_none_iff_exists'.mp (Bracket.enclosed_eq_none_iff.mp hround)
  exact (hclosed.own hd).1.exists_partners

/-- a square bracket in a round one, and a stray closer behind them -/
theorem exists_isPairing_menu :
    let ts := ["f", "(", "a", "[", "i", "]", ")", "]"]
    requireClosed 1 ts = .ok () ∧ Bracket.round.enclosed 0 ts = none ∧
      (∃ pairs, IsPairing EndsScan ts pairs) ∧ ∃ pairs, IsPairing IsOwnCloser ts pairs := by
  intro ts
  have hinner : IsClosed EndsScan ["i"] := .skip rfl .nil
  have hindex : IsClosed EndsScan ["a", "[", "i", "]"] :=
    .skip rfl (.pair .square hinner rfl rfl rfl .nil)
  have hclosed : IsClosed EndsScan ts :=
    .skip rfl (.pair .round hindex rfl rfl rfl (.skip rfl .nil))
  have h : requireClosed 1 ts = .ok () := requireClosed_eq_ok.mpr (unclosed?_eq_none_iff.mpr hclosed)
  obtain ⟨hany, hown⟩ := exists_isPairing h
  exact ⟨h, rfl, hany, hown rfl⟩

/-- a round closer that no opener waits for is accepted as the partner of a square bracket -/
theorem round_closer_ends_square :
    requireClosed 1 ["[", ")"] = .ok () ∧ ¬∃ pairs, IsPairing IsOwnCloser ["[", ")"] pairs := by
  constructor
  · have hpair := unclosed?_pair (b := .square) (t := ")") (Bracket.depthOver_nil _ 0) rfl []
    rw [unclosed?_nil] at hpair
    exact requireClosed_eq_ok.mpr hpair
  · rintro ⟨pairs, h⟩
    obtain ⟨j, hj⟩ := h.complete 0 .square rfl
    obtain ⟨hlt, b, t, ho, ht, hk⟩ := h.closes _ hj
    -- the partner would be the only other token, and this is a round closer
    obtain rfl : b = .square := by
      cases b with
      | round => exact absurd (Option.some.inj ho) (by decide)
      | square => rfl
    obtain ⟨-, hlen⟩ := h.lt_length hj
    obtain rfl : j = 1 := by simp only [List.length_cons, List.length_nil] at hlen hlt; omega
    obtain rfl := Option.some.inj ht
    exact absurd (show ")" = "]" from hk) (by decide)

end Markup
