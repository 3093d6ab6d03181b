import RemoteDebugger.Unwind.Frames

/-!
# The walk up the stack

`unwind` returns the longest prefix of at most `max` frames of the walk that
`previousFrame` recovers, and says why it ends (`unwind_longest_walk`).
-/

namespace RemoteDebugger

namespace Unwinder

/-- The caller of a frame, when `previousFrame` recovers one; none when the frame has no rules
or recovering fails. -/
def caller (u : Unwinder Id) (r : Registers) : Option Registers :=
  match (u.previousFrame r).run with
  | .ok (some c) => some c
  | _ => none

/-- One more frame of the walk from a nonzero program counter: the frame itself, then, unless
the caller stands where the frame does, the walk from the caller. -/
theorem unwind_succ (u : Unwinder Id) (r : Registers) (n : Nat) :
    u.unwind r (n + 1) =
      if r.pc = 0 then []
      else r :: match u.caller r with
        | some c => if c.pc = r.pc ∧ c.sp = r.sp then [] else u.unwind c n
        | none => [] := by
  rw [unwind]
  split
  · rfl
  · simp only [caller, bind, pure]
    cases (u.previousFrame r).run with
    | error e => rfl
    | ok o =>
      cases o with
      | none => rfl
      | some c =>
        dsimp only
        by_cases h : c.pc = r.pc ∧ c.sp = r.sp
        · rw [if_pos h, if_pos h]
        · rw [if_neg h, if_neg h]

/-- The `i`-th frame of the walk from `r`, innermost first: `r` itself, then the caller of each
frame, as far as callers are recovered. -/
def frame (u : Unwinder Id) (r : Registers) : Nat → Option Registers
  | 0 => some r
  | i + 1 => (u.frame r i).bind u.caller

/-- The walk from a frame is the frame, then the walk from its caller. -/
theorem frame_succ (u : Unwinder Id) (r : Registers) (i : Nat) :
    u.frame r (i + 1) = (u.caller r).bind fun c => u.frame c i := by
  induction i with
  | zero =>
    show (some r).bind u.caller = _
    rw [Option.bind_some]
    cases u.caller r <;> rfl
  | succ i ih =>
    rw [frame, ih]
    cases u.caller r <;> rfl

theorem frame_succ_of_caller {u : Unwinder Id} {r c : Registers} (h : u.caller r = some c)
    (i : Nat) : u.frame r (i + 1) = u.frame c i := by
  rw [frame_succ, h, Option.bind_some]

/-- The first `k` frames of the walk from `r` are all recovered and none has a zero program
counter, and each after the first moves the program counter or the stack pointer from the one
before it. -/
def Walks (u : Unwinder Id) (r : Registers) (k : Nat) : Prop :=
  (∀ i < k, ∃ f, u.frame r i = some f ∧ f.pc ≠ 0) ∧
  ∀ i, i + 1 < k → ∀ f g, u.frame r i = some f → u.frame r (i + 1) = some g →
    g.pc ≠ f.pc ∨ g.sp ≠ f.sp

theorem walks_zero (u : Unwinder Id) (r : Registers) : u.Walks r 0 :=
  ⟨fun _ h => absurd h (Nat.not_lt_zero _), fun _ h => absurd h (Nat.not_lt_zero _)⟩

/-- A walk of one frame more is a frame with a nonzero program counter and, beyond that frame,
a caller that moves from it and walks on. -/
theorem walks_succ (u : Unwinder Id) (r : Registers) (k : Nat) :
    u.Walks r (k + 1) ↔ r.pc ≠ 0 ∧
      (k = 0 ∨ ∃ c, u.caller r = some c ∧ (c.pc ≠ r.pc ∨ c.sp ≠ r.sp) ∧ u.Walks c k) := by
  constructor
  · rintro ⟨hsome, hmove⟩
    obtain ⟨f0, h0, hpc0⟩ := hsome 0 (by omega)
    cases h0
    refine ⟨hpc0, ?_⟩
    rcases Nat.eq_zero_or_pos k with rfl | hk
    · exact .inl rfl
    obtain ⟨c, hc1, -⟩ := hsome 1 (by omega)
    have hc : u.caller r = some c := hc1
    refine .inr ⟨c, hc, hmove 0 (by omega) r c rfl hc1, ?_, ?_⟩
    · intro i hi
      rw [← frame_succ_of_caller hc]
      exact hsome (i + 1) (by omega)
    · intro i hi f g hf hg
      rw [← frame_succ_of_caller hc] at hf hg
      exact hmove (i + 1) (by omega) f g hf hg
  · rintro ⟨hpc, hk | ⟨c, hc, hcm, hsome, hmove⟩⟩
    · subst hk
      refine ⟨fun i hi => ?_, fun i hi => absurd hi (by omega)⟩
      obtain rfl : i = 0 := by omega
      exact ⟨r, rfl, hpc⟩
    · refine ⟨fun i hi => ?_, fun i hi f g hf hg => ?_⟩
      · cases i with
        | zero => exact ⟨r, rfl, hpc⟩
        | succ j =>
          rw [frame_succ_of_caller hc]
          exact hsome j (by omega)
      · cases i with
        | zero =>
          cases hf
          rw [frame_succ_of_caller hc] at hg
          cases hg
          exact hcm
        | succ j =>
          rw [frame_succ_of_caller hc] at hf hg
          exact hmove j (by omega) f g hf hg

/-- From a zero program counter there is no walk at all. -/
theorem eq_zero_of_walks {u : Unwinder Id} {r : Registers} (hpc : r.pc = 0) {k : Nat}
    (h : u.Walks r k) : k = 0 := by
  cases k with
  | zero => rfl
  | succ k => exact absurd hpc ((walks_succ u r k).1 h).1

/-- Where no caller that moves is recovered, a walk ends with its first frame. -/
theorem le_one_of_walks {u : Unwinder Id} {r : Registers}
    (hstop : ∀ c, u.caller r = some c → c.pc = r.pc ∧ c.sp = r.sp) {k : Nat} (h : u.Walks r k) :
    k ≤ 1 := by
  cases k with
  | zero => omega
  | succ k =>
    rcases ((walks_succ u r k).1 h).2 with hk | ⟨c, hc, hmoves, -⟩
    · omega
    · obtain ⟨hpc, hsp⟩ := hstop c hc
      rcases hmoves with hm | hm
      · exact absurd hpc hm
      · exact absurd hsp hm

/-- The frames `unwind` returns are the frames of the walk from `r` in order, at most `max` of
them; they walk, and no walk of at most `max` frames is longer. -/
theorem unwind_walk (u : Unwinder Id) (max : Nat) : ∀ r : Registers,
    (∀ i (h : i < (u.unwind r max).run.length), u.frame r i = some (u.unwind r max).run[i]) ∧
    (u.unwind r max).run.length ≤ max ∧ u.Walks r (u.unwind r max).run.length ∧
    ∀ k, k ≤ max → u.Walks r k → k ≤ (u.unwind r max).run.length := by
  induction max with
  | zero =>
    intro r
    refine ⟨fun i h => absurd h (Nat.not_lt_zero _), Nat.le_refl _, walks_zero u r,
      fun k hk _ => hk⟩
  | succ n ih =>
    intro r
    rw [unwind_succ]
    by_cases hpc : r.pc = 0
    · -- a zero program counter ends the walk before its first frame
      rw [if_pos hpc]
      exact ⟨fun i h => absurd h (Nat.not_lt_zero _), Nat.zero_le _, walks_zero u r,
        fun k _ hk => Nat.le_of_eq (eq_zero_of_walks hpc hk)⟩
    rw [if_neg hpc]
    -- without a caller that moves, the walk is the frame alone
    have hone : (∀ c, u.caller r = some c → c.pc = r.pc ∧ c.sp = r.sp) →
        (∀ i (h : i < (Id.run [r]).length), u.frame r i = some (Id.run [r])[i]) ∧
        (Id.run [r]).length ≤ n + 1 ∧ u.Walks r (Id.run [r]).length ∧
        ∀ k, k ≤ n + 1 → u.Walks r k → k ≤ (Id.run [r]).length := by
      intro hstop
      refine ⟨fun i h => ?_, by simp [Id.run], (walks_succ u r 0).2 ⟨hpc, .inl rfl⟩,
        fun k _ hk => le_one_of_walks hstop hk⟩
      obtain rfl : i = 0 := by simpa [Id.run] using h
      rfl
    cases hc : u.caller r with
    | none => exact hone fun c h => nomatch h.symm.trans hc
    | some c =>
      dsimp only
      by_cases hstay : c.pc = r.pc ∧ c.sp = r.sp
      · rw [if_pos hstay]
        exact hone fun c' h => (Option.some.inj (h.symm.trans hc)) ▸ hstay
      rw [if_neg hstay]
      -- the caller moves: the frame, then the walk from the caller
      obtain ⟨hframes, hlen, hwalks, hmax⟩ := ih c
      have hmoves : c.pc ≠ r.pc ∨ c.sp ≠ r.sp := by
        by_cases hsame : c.pc = r.pc
        · exact .inr fun hsp => hstay ⟨hsame, hsp⟩
        · exact .inl hsame
      refine ⟨fun i h => ?_, by simpa [Id.run] using hlen, ?_, fun k hk hwalk => ?_⟩
      · cases i with
        | zero => rfl
        | succ j =>
          rw [frame_succ_of_caller hc]
          exact hframes j (by simpa [Id.run] using h)
      · exact (walks_succ u r _).2 ⟨hpc, .inr ⟨c, hc, hmoves, hwalks⟩⟩
      · cases k with
        | zero => exact Nat.zero_le _
        | succ k =>
          rcases ((walks_succ u r k).1 hwalk).2 with rfl | ⟨c', hc', -, hwalk'⟩
          · simp [Id.run]
          · cases hc'.symm.trans hc
            simpa [Id.run] using hmax k (by omega) hwalk'

/-- A walk shorter than `max` ends for a reason: the first frame has a zero program counter, or
the last has no caller, or one with a zero program counter, or one that stands where it does. -/
theorem unwind_ends (u : Unwinder Id) (r : Registers) (max : Nat) :
    (u.unwind r max).run.length = max ∨ ((u.unwind r max).run = [] ∧ r.pc = 0) ∨
    ∃ f, (u.unwind r max).run.getLast? = some f ∧
      ∀ c, u.caller f = some c → c.pc = 0 ∨ (c.pc = f.pc ∧ c.sp = f.sp) := by
  obtain ⟨hframes, hlen, hwalks, hmax⟩ := unwind_walk u max r
  generalize hL : (u.unwind r max).run = L at hframes hlen hwalks hmax
  rcases Nat.lt_or_ge L.length max with hshort | hfull
  · -- one frame more would still walk unless the walk stopped for a reason
    have hnot : ¬ u.Walks r (L.length + 1) := fun h => Nat.lt_irrefl _ (hmax _ hshort h)
    rcases L.eq_nil_or_concat with rfl | ⟨init, f, rfl⟩
    · refine .inr (.inl ⟨rfl, Decidable.byContradiction fun hpc => hnot ?_⟩)
      exact (walks_succ u r 0).2 ⟨hpc, .inl rfl⟩
    · rw [List.concat_eq_append] at hframes hwalks hnot ⊢
      refine .inr (.inr ⟨f, List.getLast?_concat, fun c hc => ?_⟩)
      have hf : u.frame r init.length = some f := by simpa using hframes init.length (by simp)
      have hc' : u.frame r (init.length + 1) = some c := by rw [frame, hf, Option.bind_some, hc]
      refine Decidable.byContradiction fun hstop => hnot ⟨fun i hi => ?_, fun i hi g g' hg hg' => ?_⟩
      · rcases Nat.lt_or_ge i (init ++ [f]).length with hin | hlast
        · exact hwalks.1 i hin
        · obtain rfl : i = init.length + 1 := by simp at hi hlast; omega
          exact ⟨c, hc', fun hpc => hstop (.inl hpc)⟩
      · rcases Nat.lt_or_ge (i + 1) (init ++ [f]).length with hin | hlast
        · exact hwalks.2 i hin g g' hg hg'
        · obtain rfl : i = init.length := by simp at hi hlast; omega
          rw [hf] at hg
          rw [hc'] at hg'
          cases hg
          cases hg'
          by_cases hsame : c.pc = f.pc
          · exact .inr fun hsp => hstop (.inr ⟨hsame, hsp⟩)
          · exact .inl hsame
  · exact .inl (Nat.le_antisymm hlen hfull)

/-- Unwinding returns the longest prefix of the walk from `r` that the stop conditions allow. Its
frames are the walk's frames in order: `r`, then each frame's caller as `previousFrame` recovers
it. There are at most `max`, none has a zero program counter, each moves the program counter or
the stack pointer from the one before, and no such prefix of at most `max` frames is longer. The
walk ends after `max` frames, at once on a zero program counter, or at a last frame whose caller
is not recovered, has a zero program counter, or stands where that frame does. -/
theorem unwind_longest_walk (u : Unwinder Id) (r : Registers) (max : Nat) :
    (∀ i (h : i < (u.unwind r max).run.length), u.frame r i = some (u.unwind r max).run[i]) ∧
    (u.unwind r max).run.length ≤ max ∧ u.Walks r (u.unwind r max).run.length ∧
    (∀ k, k ≤ max → u.Walks r k → k ≤ (u.unwind r max).run.length) ∧
    ((u.unwind r max).run.length = max ∨ ((u.unwind r max).run = [] ∧ r.pc = 0) ∨
      ∃ f, (u.unwind r max).run.getLast? = some f ∧
        ∀ c, u.caller f = some c → c.pc = 0 ∨ (c.pc = f.pc ∧ c.sp = f.sp)) := by
  obtain ⟨hframes, hlen, hwalks, hmax⟩ := unwind_walk u max r
  exact ⟨hframes, hlen, hwalks, hmax, unwind_ends u r max⟩

end Unwinder

end RemoteDebugger
