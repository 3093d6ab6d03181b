import RemoteDebugger.Proofs.Symbols.Collected

/-!
# Outer scope chains

An outer scope chain stops or comes back to a key it passed. `walkOuter` answers `none` exactly
for an entry whose chain is endless, within its fuel (`walkOuter_spec`).
-/

namespace RemoteDebugger

open Std

namespace ScopeChain

section Follow

variable {α : Type} (link : α → Option α)

/-- The key `n` links away from a key, if the chain is that long. -/
def follow : Nat → α → Option α
  | 0, k => some k
  | n + 1, k => (follow n k).bind link

/-- A chain that never stops. -/
def Endless (k : α) : Prop := ∀ n, (follow link n k).isSome

variable {link}

theorem follow_one (k : α) : follow link 1 k = link k := rfl

theorem follow_add (a t : Nat) (k : α) :
    follow link (a + t) k = (follow link a k).bind (follow link t) := by
  induction t with
  | zero => cases follow link a k <;> rfl
  | succ t ih =>
    show (follow link (a + t) k).bind link = _
    rw [ih, Option.bind_assoc]
    rfl

/-- A chain that has stopped stays stopped. -/
theorem follow_eq_none_of_le {m n : Nat} {k : α} (hmn : m ≤ n) (h : follow link m k = none) :
    follow link n k = none := by
  obtain ⟨t, rfl⟩ := Nat.exists_eq_add_of_le hmn
  rw [follow_add, h]
  rfl

theorem isSome_follow_of_le {m n : Nat} {k : α} (hmn : m ≤ n) (h : (follow link n k).isSome) :
    (follow link m k).isSome := by
  cases hm : follow link m k with
  | none => rw [follow_eq_none_of_le hmn hm] at h; cases h
  | some _ => rfl

/-- A chain that comes back to a key it passed goes on forever. -/
theorem endless_of_repeat {i j : Nat} {k : α} (hij : i < j)
    (hrep : follow link i k = follow link j k) (hsome : (follow link j k).isSome) :
    Endless link k := by
  intro n
  induction n using Nat.strong_induction_on with
  | _ n ih =>
    by_cases hn : n ≤ j
    · exact isSome_follow_of_le hn hsome
    · -- past the repeat, the chain runs as it ran from the earlier visit
      obtain ⟨t, rfl⟩ := Nat.exists_eq_add_of_lt (Nat.lt_of_not_le hn)
      have hshift : follow link (j + t + 1) k = follow link (i + (t + 1)) k := by
        rw [Nat.add_assoc, follow_add, follow_add, hrep]
      rw [hshift]
      exact ih _ (by omega)

theorem endless_of_cycle {k : α} {n : Nat} (hn : 0 < n) (h : follow link n k = some k) :
    Endless link k :=
  endless_of_repeat hn (by rw [h]; rfl) (by rw [h]; rfl)

/-- A chain that reaches an endless one is endless. -/
theorem endless_of_follow {m : Nat} {k x : α} (h : follow link m k = some x)
    (hx : Endless link x) : Endless link k := by
  intro n
  by_cases hn : n ≤ m
  · exact isSome_follow_of_le hn (by rw [h]; rfl)
  · obtain ⟨t, rfl⟩ := Nat.exists_eq_add_of_le (Nat.le_of_not_le hn)
    rw [follow_add, h]
    exact hx t

/-- Every key of an endless chain starts an endless chain. -/
theorem Endless.follow {k : α} (hk : Endless link k) (m : Nat) :
    ∃ x, follow link m k = some x ∧ Endless link x := by
  obtain ⟨x, hx⟩ := Option.isSome_iff_exists.1 (hk m)
  refine ⟨x, hx, fun t => ?_⟩
  have := hk (m + t)
  rwa [follow_add, hx] at this

theorem Endless.isSome_link {k : α} (hk : Endless link k) : (link k).isSome := hk 1

/-- A chain that reaches a key in `m > 0` steps and then a chain that stops stops. -/
theorem not_endless_of_follow {m : Nat} {k : α} {o : Option α} (h : follow link m k = o)
    (ho : ∀ x, o = some x → ¬ Endless link x) : ¬ Endless link k := by
  intro hk
  obtain ⟨x, hx, hxe⟩ := hk.follow m
  exact ho x (h ▸ hx) hxe

/-- Pigeonhole: a chain that stays in a list for one step more than the list is long passes
some key twice. -/
theorem exists_repeat (S : List α) {k : α}
    (h : ∀ i ≤ S.length, ∃ x ∈ S, follow link i k = some x) :
    ∃ i j, i < j ∧ j ≤ S.length ∧ follow link i k = follow link j k := by
  have hsub : (List.range (S.length + 1)).map (fun i => follow link i k) ⊆ S.map some := by
    intro o ho
    obtain ⟨i, hi, rfl⟩ := List.mem_map.1 ho
    obtain ⟨x, hx, hfx⟩ := h i (Nat.lt_succ_iff.1 (List.mem_range.1 hi))
    rw [hfx]
    exact List.mem_map_of_mem hx
  have hdup : ¬ ((List.range (S.length + 1)).map (fun i => follow link i k)).Nodup := by
    intro hnd
    have := (hnd.subperm hsub).length_le
    simp at this
  rw [List.nodup_iff_getElem?_ne_getElem?] at hdup
  push Not at hdup
  obtain ⟨i, j, hij, hj, hrep⟩ := hdup
  simp only [List.length_map, List.length_range] at hj
  rw [List.getElem?_map, List.getElem?_map, List.getElem?_range (by omega),
    List.getElem?_range hj] at hrep
  exact ⟨i, j, hij, by omega, Option.some.inj hrep⟩

/-- When every key that links on is in `S`, a chain is endless exactly when it stays in `S` for
`S.length` steps; this makes endlessness decidable. -/
theorem endless_iff_mem {S : List α} (hS : ∀ x, (link x).isSome → x ∈ S) (k : α) :
    Endless link k ↔ ∀ i ≤ S.length, ∃ x ∈ S, follow link i k = some x := by
  constructor
  · intro hk i _
    obtain ⟨x, hx, hxe⟩ := hk.follow i
    exact ⟨x, hS x hxe.isSome_link, hx⟩
  · intro h
    obtain ⟨i, j, hij, hj, hrep⟩ := exists_repeat S h
    obtain ⟨x, -, hx⟩ := h j hj
    exact endless_of_repeat hij hrep (by rw [hx]; rfl)

/-- An endless chain runs into a cycle. -/
theorem exists_cycle {S : List α} (hS : ∀ x, (link x).isSome → x ∈ S) {k : α}
    (hk : Endless link k) : ∃ x n, 0 < n ∧ follow link n x = some x := by
  obtain ⟨i, j, hij, -, hrep⟩ := exists_repeat S ((endless_iff_mem hS k).1 hk)
  obtain ⟨x, hx⟩ := Option.isSome_iff_exists.1 (hk i)
  refine ⟨x, j - i, by omega, ?_⟩
  have hj : follow link j k = (follow link i k).bind (follow link (j - i)) := by
    rw [← follow_add, Nat.add_sub_cancel' (Nat.le_of_lt hij)]
  rw [← hrep, hx, Option.bind_some] at hj
  exact hj.symm

end Follow

/-! ## The walk of `checkCycles` -/

section Walk

variable {entries : Array Entry} {slots : TreeMap EntryKey Nat compare}
  {known : TreeSet EntryKey compare} {link : EntryKey → Option EntryKey} {S : List EntryKey}

/-- A chain that reaches a key that is not endless, or stops, is not endless. -/
theorem not_endless_of_reaches {x : EntryKey} {o : Option EntryKey}
    (hx : ∃ m, 0 < m ∧ follow link m x = o) (ho : ∀ k, o = some k → ¬ Endless link k) :
    ¬ Endless link x := by
  obtain ⟨m, -, hm⟩ := hx
  exact not_endless_of_follow hm ho

/-- The walk from `start` with `path` behind it and `o` ahead. While `path` and `start` are
distinct and each of them reaches `o`, the walk answers `none` only for an endless chain from
`start`, and otherwise every key it passed leads to the top. The fuel, with the path, adds up to
one more than the number of entries, which the distinct keys of an endless chain cannot fill. -/
theorem walkOuter_spec
    (hlink : ∀ k, (slots[k]?.bind fun i => entries[i]?).bind (·.outerScope) = link k)
    (hS : ∀ x, (link x).isSome → x ∈ S) (hlen : S.length ≤ entries.size)
    (hknown : ∀ x, known.contains x → ¬ Endless link x) (start : EntryKey) :
    ∀ n path o, (start :: path).Nodup →
      (∀ x ∈ start :: path, ∃ m, 0 < m ∧ follow link m x = o) →
      path.length + n = entries.size + 1 →
      match DatabaseBuilder.walkOuter entries slots known start n path o with
      | none => Endless link start
      | some p => ∀ x ∈ start :: p, ¬ Endless link x := by
  intro n
  induction n with
  | zero =>
    intro path o hnd hreach hfuel
    simp only [DatabaseBuilder.walkOuter]
    intro x hx
    apply not_endless_of_reaches (hreach x hx)
    rintro k rfl
    -- out of fuel: the path is longer than `S`, so not every key on it links on
    exfalso
    have hsub : start :: path ⊆ S := by
      intro y hy
      obtain ⟨m, hm, hfy⟩ := hreach y hy
      have hlinks : (follow link 1 y).isSome := isSome_follow_of_le hm (by rw [hfy]; rfl)
      exact hS y hlinks
    have := (hnd.subperm hsub).length_le
    simp only [List.length_cons] at this
    omega
  | succ n ih =>
    intro path o hnd hreach hfuel
    cases o with
    | none =>
      simp only [DatabaseBuilder.walkOuter]
      intro x hx
      exact not_endless_of_reaches (hreach x hx) (fun _ h => nomatch h)
    | some k =>
      simp only [DatabaseBuilder.walkOuter]
      by_cases hk : known.contains k = true
      · -- a known key leads to the top, and so does everything that reaches it
        simp only [hk, if_true]
        intro x hx
        exact not_endless_of_reaches (hreach x hx) (fun k' h => Option.some.inj h ▸ hknown k hk)
      · simp only [hk, Bool.false_eq_true, if_false]
        by_cases hback : k = start ∨ k ∈ path
        · -- the chain came back to a key it passed
          simp only [hback, if_true]
          obtain ⟨m, hm, hfk⟩ := hreach k (List.mem_cons.2 hback)
          obtain ⟨m', -, hfs⟩ := hreach start List.mem_cons_self
          exact endless_of_follow hfs (endless_of_cycle hm hfk)
        · simp only [hback, if_false]
          have hkn : k ∉ start :: path := fun h => hback (List.mem_cons.1 h)
          have hfuel' : (path ++ [k]).length + n = entries.size + 1 := by
            rw [List.length_append, List.length_singleton]
            omega
          apply ih (path ++ [k]) _ ?_ ?_ hfuel'
          · rw [← List.cons_append]
            exact List.nodup_append.2 ⟨hnd, List.nodup_singleton k,
              fun a ha b hb => by rw [List.mem_singleton.1 hb]; exact fun h => hkn (h ▸ ha)⟩
          · intro x hx
            rw [← List.cons_append, List.mem_append, List.mem_singleton] at hx
            rw [hlink k]
            rcases hx with hx | rfl
            · obtain ⟨m, hm, hfx⟩ := hreach x hx
              exact ⟨m + 1, by omega, by rw [follow_add, hfx]; rfl⟩
            · exact ⟨1, by omega, follow_one x⟩

end Walk

end ScopeChain

end RemoteDebugger
