import RemoteDebugger.Proofs.Symbols.OrderedMaps
import RemoteDebugger.Proofs.Symbols.ScopeChains

/-!
# Scope transitions recorded span by span

Recording the spans of a tree of scopes (`Laminar`) in order, a start replacing what is there
and an end written only where nothing is, leaves at every address the innermost owner of a span
that contains it (`innermost_inForce_foldl_record`).
-/

namespace RemoteDebugger

open Std ScopeChain

/-- An interval `[low, high)` of code owned by an entry, with the owner's outer scope, which
resumes where the interval ends. -/
structure ScopeSpan where
  owner : EntryKey
  outer : Option EntryKey
  low : UInt64
  high : UInt64
  deriving DecidableEq, Repr

namespace ScopeSpan

/-- The span covers an address. -/
def Contains (s : ScopeSpan) (a : UInt64) : Prop := s.low ≤ a ∧ a < s.high

/-- The spans share no address. -/
def Apart (s u : ScopeSpan) : Prop := s.high ≤ u.low ∨ u.high ≤ s.low

/-- The first span lies inside the second. -/
def Within (s u : ScopeSpan) : Prop := u.low ≤ s.low ∧ s.high ≤ u.high

instance (s : ScopeSpan) (a : UInt64) : Decidable (s.Contains a) :=
  inferInstanceAs (Decidable (_ ∧ _))

instance (s u : ScopeSpan) : Decidable (s.Apart u) := inferInstanceAs (Decidable (_ ∨ _))

instance (s u : ScopeSpan) : Decidable (s.Within u) := inferInstanceAs (Decidable (_ ∧ _))

theorem Apart.symm {s u : ScopeSpan} (h : s.Apart u) : u.Apart s := Or.symm h

theorem Apart.not_contains {s u : ScopeSpan} (h : s.Apart u) {a : UInt64} (hs : s.Contains a) :
    ¬ u.Contains a := by
  unfold Apart Contains at *
  grind

theorem Within.trans {x s u : ScopeSpan} (hxs : x.Within s) (hsu : s.Within u) : x.Within u := by
  unfold Within at *
  grind

theorem Within.apart {x s u : ScopeSpan} (hxs : x.Within s) (hsu : s.Apart u) : x.Apart u := by
  unfold Within Apart at *
  grind

theorem Contains.of_within {s u : ScopeSpan} {a : UInt64} (h : s.Contains a) (hsu : s.Within u) :
    u.Contains a := by
  unfold Contains Within at *
  grind

theorem contains_low {s : ScopeSpan} (h : s.low < s.high) : s.Contains s.low := ⟨UInt64.le_refl _, h⟩

/-- Record a span's transitions: the owner takes over at the start, replacing what was recorded
there, and the outer scope resumes at the end unless a transition is already recorded there. -/
def record (t : TreeMap UInt64 (Option EntryKey) compare) (s : ScopeSpan) :
    TreeMap UInt64 (Option EntryKey) compare :=
  let t := t.insert s.low (some s.owner)
  if t[s.high]?.isNone then t.insert s.high s.outer else t

section Record

variable {t : TreeMap UInt64 (Option EntryKey) compare} {s : ScopeSpan}

theorem getElem?_insert_of_ne {β : Type} (t : TreeMap UInt64 β compare) {k a : UInt64} (v : β)
    (h : k ≠ a) : (t.insert k v)[a]? = t[a]? := by
  rw [TreeMap.getElem?_insert, if_neg (fun he => h (LawfulEqCmp.eq_of_compare he))]

/-- What a recorded span leaves at each address: the outer scope at its end where nothing was
recorded, its owner at its start, and what was there before elsewhere. -/
theorem getElem?_record (hlt : s.low < s.high) (k : UInt64) :
    (s.record t)[k]? =
      if k = s.high ∧ s.high ∉ t then some s.outer
      else if k = s.low then some (some s.owner) else t[k]? := by
  have hne : s.low ≠ s.high := UInt64.ne_of_lt hlt
  have hhigh : (t.insert s.low (some s.owner))[s.high]? = t[s.high]? :=
    getElem?_insert_of_ne t _ hne
  unfold record
  by_cases hfree : s.high ∈ t
  · have hsome : (t.insert s.low (some s.owner))[s.high]?.isNone = false := by
      rw [hhigh, ← Option.not_isSome, TreeMap.isSome_getElem?_iff_mem.2 hfree]
      rfl
    simp only [hsome, Bool.false_eq_true, if_false, hfree, not_true_eq_false, and_false]
    by_cases hk : k = s.low
    · rw [if_pos hk, hk, TreeMap.getElem?_insert_self]
    · rw [if_neg hk, getElem?_insert_of_ne t _ (Ne.symm hk)]
  · have hnone : (t.insert s.low (some s.owner))[s.high]?.isNone = true := by
      rw [hhigh, Option.isNone_iff_eq_none]
      exact TreeMap.getElem?_eq_none hfree
    simp only [hnone, if_true, hfree, not_false_eq_true, and_true]
    by_cases hkh : k = s.high
    · rw [if_pos hkh, hkh, TreeMap.getElem?_insert_self]
    · rw [if_neg hkh, getElem?_insert_of_ne _ _ (Ne.symm hkh)]
      by_cases hk : k = s.low
      · rw [if_pos hk, hk, TreeMap.getElem?_insert_self]
      · rw [if_neg hk, getElem?_insert_of_ne t _ (Ne.symm hk)]

theorem mem_record {k : UInt64} (h : k ∈ s.record t) : k ∈ t ∨ k = s.low ∨ k = s.high := by
  dsimp only [record] at h
  split at h
  · rcases TreeMap.mem_insert.1 h with hk | hk
    · exact .inr (.inr (LawfulEqCmp.eq_of_compare hk).symm)
    · rcases TreeMap.mem_insert.1 hk with hk | hk
      · exact .inr (.inl (LawfulEqCmp.eq_of_compare hk).symm)
      · exact .inl hk
  · rcases TreeMap.mem_insert.1 h with hk | hk
    · exact .inr (.inl (LawfulEqCmp.eq_of_compare hk).symm)
    · exact .inl hk

end Record

end ScopeSpan

/-- The scope in force at an address: the one of the transition at the greatest address at or
below it. -/
def inForce (t : TreeMap UInt64 (Option EntryKey) compare) (a : UInt64) : Option EntryKey :=
  (t.getEntryLE? a).bind (·.2)

/-! ## Floor lookups of transitions -/

section Floor

variable {t t' : TreeMap UInt64 (Option EntryKey) compare} {a b : UInt64}

theorem inForce_eq_of_max {k : UInt64} {v : Option EntryKey} (hk : t[k]? = some v) (hka : k ≤ a)
    (hmax : ∀ k' ∈ t, k' ≤ a → k' ≤ k) : inForce t a = v := by
  rw [inForce, (getEntryLE?_eq_some_iff t a k v).2 ⟨hk, hka, hmax⟩]
  rfl

theorem inForce_eq_none_of_forall_lt (h : ∀ k ∈ t, a < k) : inForce t a = none := by
  rw [inForce, (getEntryLE?_eq_none_iff t a).2 h]
  rfl

/-- Maps that agree at and below an address put the same scope in force there. -/
theorem inForce_congr (h : ∀ k ≤ a, t[k]? = t'[k]?) : inForce t a = inForce t' a := by
  have hmem : ∀ k ≤ a, k ∈ t ↔ k ∈ t' := fun k hk => by
    rw [← TreeMap.isSome_getElem?_iff_mem, ← TreeMap.isSome_getElem?_iff_mem, h k hk]
  cases hf : t.getEntryLE? a with
  | none =>
    have hlt := (getEntryLE?_eq_none_iff t a).1 hf
    rw [inForce, hf, inForce_eq_none_of_forall_lt]
    · rfl
    · intro k hk
      by_contra hka
      exact absurd (hlt k ((hmem k (UInt64.not_lt.1 hka)).2 hk)) hka
  | some e =>
    obtain ⟨hk, hka, hmax⟩ := (getEntryLE?_eq_some_iff t a e.1 e.2).1 hf
    rw [inForce, hf, inForce_eq_of_max (h e.1 hka ▸ hk) hka
      (fun k hk' hka' => hmax k ((hmem k hka').2 hk') hka')]
    rfl

/-- With no transition in `(b, a]`, the scope in force at `a` is the one in force at `b`. -/
theorem inForce_eq_of_gap (hba : b ≤ a) (hgap : ∀ k ∈ t, b < k → a < k) :
    inForce t a = inForce t b := by
  have hbelow : ∀ k ∈ t, k ≤ a → k ≤ b := fun k hk hka => by
    by_contra hkb
    exact absurd (hgap k hk ((UInt64.not_le.1 hkb))) ((UInt64.not_lt.2 hka))
  cases hf : t.getEntryLE? b with
  | none =>
    have hlt := (getEntryLE?_eq_none_iff t b).1 hf
    rw [inForce_eq_none_of_forall_lt (fun k hk => hgap k hk (hlt k hk)), inForce, hf]
    rfl
  | some e =>
    obtain ⟨hk, hkb, hmax⟩ := (getEntryLE?_eq_some_iff t b e.1 e.2).1 hf
    rw [inForce_eq_of_max hk (UInt64.le_trans hkb hba) (fun k hk' hka => hmax k hk' (hbelow k hk' hka)),
      inForce, hf]
    rfl

end Floor

/-- Recording a span with no transition strictly inside it, where its outer scope is in force at
its start, puts its owner in force on the span and changes nothing elsewhere. -/
theorem inForce_record {t : TreeMap UInt64 (Option EntryKey) compare} {s : ScopeSpan}
    (hlt : s.low < s.high) (hgap : ∀ k ∈ t, s.low < k → s.high ≤ k)
    (hstart : inForce t s.low = s.outer) (a : UInt64) :
    inForce (s.record t) a = if s.Contains a then some s.owner else inForce t a := by
  have hget := ScopeSpan.getElem?_record (t := t) hlt
  have hmem : ∀ k ∈ s.record t, k ∈ t ∨ k = s.low ∨ k = s.high := fun _ => ScopeSpan.mem_record
  split
  · -- on the span its start is the last transition
    rename_i hc
    apply inForce_eq_of_max (k := s.low) _ hc.1
    · intro k hk hka
      rcases hmem k hk with hk | rfl | rfl
      · by_contra hlo
        exact absurd (UInt64.lt_of_lt_of_le hc.2 (hgap k hk ((UInt64.not_le.1 hlo)))) ((UInt64.not_lt.2 hka))
      · exact UInt64.le_refl _
      · exact absurd (UInt64.lt_of_le_of_lt hka hc.2) (UInt64.lt_irrefl _)
    · rw [hget, if_neg (fun h => UInt64.ne_of_lt hlt h.1), if_pos rfl]
  · rename_i hc
    by_cases hbefore : a < s.low
    · -- below the span both maps agree
      apply inForce_congr
      intro k hk
      rw [hget, if_neg (fun h => absurd (h.1 ▸ UInt64.lt_of_le_of_lt hk (UInt64.lt_trans hbefore hlt))
        (UInt64.lt_irrefl _)), if_neg (fun h => absurd (h ▸ UInt64.lt_of_le_of_lt hk hbefore) (UInt64.lt_irrefl _))]
    · have hafter : s.high ≤ a := by
        unfold ScopeSpan.Contains at hc
        grind
      by_cases hlater : ∃ k ∈ t, s.high ≤ k ∧ k ≤ a
      · -- the last transition of `t` at or below `a` lies past the span and decides both lookups
        obtain ⟨k, hk, hhk, hka⟩ := hlater
        obtain ⟨⟨m, v⟩, hf⟩ := Option.ne_none_iff_exists'.1 fun hnone =>
          absurd ((getEntryLE?_eq_none_iff t a).1 hnone k hk) ((UInt64.not_lt.2 hka))
        obtain ⟨hm, hma, hmax⟩ := (getEntryLE?_eq_some_iff t a m v).1 hf
        have hhm : s.high ≤ m := UInt64.le_trans hhk (hmax k hk hka)
        have hmem_m : m ∈ t := TreeMap.isSome_getElem?_iff_mem.1 (by rw [hm]; rfl)
        rw [show inForce t a = v by rw [inForce, hf]; rfl]
        apply inForce_eq_of_max (k := m) _ hma
        · intro k' hk' hk'a
          rcases hmem k' hk' with hk' | rfl | rfl
          · exact hmax k' hk' hk'a
          · exact UInt64.le_trans (UInt64.le_of_lt hlt) hhm
          · exact hhm
        · rw [hget, if_neg (fun h => h.2 (h.1 ▸ hmem_m)),
            if_neg (fun h => absurd (h ▸ UInt64.lt_of_lt_of_le hlt hhm) (UInt64.lt_irrefl _)), hm]
      · -- otherwise the span's end is the last transition, and the outer scope resumes there
        have hfree : s.high ∉ t := fun h => hlater ⟨s.high, h, UInt64.le_refl _, hafter⟩
        rw [inForce_eq_of_gap (t := t) (UInt64.le_trans (UInt64.le_of_lt hlt) hafter) (fun k hk hlk => by
          have := hgap k hk hlk
          by_contra hka
          exact hlater ⟨k, hk, this, (UInt64.not_lt.1 hka)⟩), hstart]
        apply inForce_eq_of_max (k := s.high) _ hafter
        · intro k' hk' hk'a
          rcases hmem k' hk' with hk' | rfl | rfl
          · by_contra hlo
            have hhk := hgap k' hk' (UInt64.lt_of_le_of_lt (UInt64.le_of_lt hlt) ((UInt64.not_le.1 hlo)))
            exact hlater ⟨k', hk', hhk, hk'a⟩
          · exact UInt64.le_of_lt hlt
          · exact UInt64.le_refl _
        · rw [hget, if_pos ⟨rfl, hfree⟩]

/-! ## Spans laid out as a tree of scopes -/

section Layout

variable (link : EntryKey → Option EntryKey)

/-- `k` encloses `j`: following outer scope links from `j` once or more reaches `k`. -/
def Encloses (k j : EntryKey) : Prop := ∃ n, 0 < n ∧ follow link n j = some k

/-- What a scope lookup at `a` should answer over the spans `S`: the owner of a span that contains
`a` and is enclosed by the owner of every other span that contains `a`; nothing when no span
contains `a`. -/
def Innermost (S : List ScopeSpan) (a : UInt64) : Option EntryKey → Prop
  | none => ∀ s ∈ S, ¬ s.Contains a
  | some k => (∃ s ∈ S, s.owner = k ∧ s.Contains a) ∧
      ∀ s ∈ S, s.Contains a → s.owner = k ∨ Encloses link s.owner k

/-- Spans laid out as a tree of scopes lays them out, in the order loading records them. -/
structure Laminar (S : List ScopeSpan) : Prop where
  /-- A span carries its owner's outer scope. -/
  outer : ∀ s ∈ S, s.outer = link s.owner
  nonempty : ∀ s ∈ S, s.low < s.high
  /-- A span lies inside a span of its owner's outer scope. -/
  nested : ∀ s ∈ S, ∀ p, link s.owner = some p → ∃ u ∈ S, u.owner = p ∧ s.Within u
  /-- Spans of one owner are apart. -/
  own : S.Pairwise fun s u => s.owner = u.owner → s.Apart u
  /-- Spans of owners neither of which encloses the other are apart. -/
  apart : ∀ s ∈ S, ∀ u ∈ S, s.owner ≠ u.owner → ¬ Encloses link s.owner u.owner →
    ¬ Encloses link u.owner s.owner → s.Apart u
  /-- The spans of a scope come before those of the scopes it encloses. -/
  order : S.Pairwise fun s u => ¬ Encloses link u.owner s.owner
  /-- No scope encloses itself. -/
  acyclic : ∀ k, ¬ Encloses link k k

variable {link}

theorem encloses_of_link {j p : EntryKey} (h : link j = some p) : Encloses link p j :=
  ⟨1, Nat.one_pos, by rw [follow_one]; exact h⟩

theorem Encloses.trans {k j m : EntryKey} (hkj : Encloses link k j) (hjm : Encloses link j m) :
    Encloses link k m := by
  obtain ⟨n₁, hn₁, h₁⟩ := hkj
  obtain ⟨n₂, hn₂, h₂⟩ := hjm
  exact ⟨n₂ + n₁, by omega, by rw [follow_add, h₂]; exact h₁⟩

/-- An enclosing chain starts at the outer scope, which is the encloser or is enclosed by it. -/
theorem Encloses.cases {k j : EntryKey} (h : Encloses link k j) :
    ∃ p, link j = some p ∧ (k = p ∨ Encloses link k p) := by
  obtain ⟨n, hn, hf⟩ := h
  obtain ⟨m, rfl⟩ := Nat.exists_eq_add_of_le hn
  rw [follow_add, follow_one] at hf
  cases hj : link j with
  | none => rw [hj] at hf; cases hf
  | some p =>
    rw [hj, Option.bind_some] at hf
    refine ⟨p, rfl, ?_⟩
    cases m with
    | zero => exact .inl (Option.some.inj hf).symm
    | succ m => exact .inr ⟨m + 1, by omega, hf⟩

theorem not_encloses_of_link_eq_none {k j : EntryKey} (h : link j = none) : ¬ Encloses link k j :=
  fun hkj => by
    obtain ⟨p, hp, -⟩ := hkj.cases
    rw [h] at hp
    cases hp

/-- The lookup's answer is unique when no scope encloses itself. -/
theorem Innermost.unique (hacyclic : ∀ k, ¬ Encloses link k k) {S : List ScopeSpan} {a : UInt64}
    {r r' : Option EntryKey} (h : Innermost link S a r) (h' : Innermost link S a r') : r = r' := by
  cases r with
  | none =>
    cases r' with
    | none => rfl
    | some k' =>
      obtain ⟨⟨s, hs, -, hsa⟩, -⟩ := h'
      exact absurd hsa (h s hs)
  | some k =>
    cases r' with
    | none =>
      obtain ⟨⟨s, hs, -, hsa⟩, -⟩ := h
      exact absurd hsa (h' s hs)
    | some k' =>
      obtain ⟨⟨s, hs, rfl, hsa⟩, hk⟩ := h
      obtain ⟨⟨s', hs', rfl, hsa'⟩, hk'⟩ := h'
      rcases hk s' hs' hsa' with he | he
      · rw [he]
      · rcases hk' s hs hsa with he' | he'
        · rw [he']
        · exact absurd (he'.trans he) (hacyclic _)

/-- A span that misses the address changes nothing the lookup should answer there. -/
theorem Innermost.append_of_not_contains {S : List ScopeSpan} {s : ScopeSpan} {a : UInt64}
    (hs : ¬ s.Contains a) {r : Option EntryKey} (h : Innermost link S a r) :
    Innermost link (S ++ [s]) a r := by
  cases r with
  | none =>
    intro u hu hua
    rcases List.mem_append.1 hu with hu | hu
    · exact h u hu hua
    · exact hs (List.mem_singleton.1 hu ▸ hua)
  | some k =>
    obtain ⟨⟨u, hu, huk, hua⟩, hk⟩ := h
    refine ⟨⟨u, List.mem_append_left _ hu, huk, hua⟩, fun v hv hva => ?_⟩
    rcases List.mem_append.1 hv with hv | hv
    · exact hk v hv hva
    · exact absurd (List.mem_singleton.1 hv ▸ hva) hs

namespace Laminar

variable {S P : List ScopeSpan} {s : ScopeSpan}

theorem own_apart (h : Laminar link S) {u v : ScopeSpan} (hu : u ∈ S) (hv : v ∈ S) (hne : u ≠ v)
    (howner : u.owner = v.owner) : u.Apart v := by
  have : Std.Symm fun x y : ScopeSpan => x.owner = y.owner → x.Apart y :=
    ⟨fun _ _ hxy hyx => (hxy hyx.symm).symm⟩
  exact h.own.forall hu hv hne howner

/-- The spans before the last are laid out too: the span holding one of them is never the last,
whose owner the earlier one's owner would enclose. -/
theorem init (h : Laminar link (P ++ [s])) : Laminar link P where
  outer x hx := h.outer x (List.mem_append_left _ hx)
  nonempty x hx := h.nonempty x (List.mem_append_left _ hx)
  nested x hx p hp := by
    obtain ⟨u, hu, hup, hxu⟩ := h.nested x (List.mem_append_left _ hx) p hp
    rcases List.mem_append.1 hu with hu | hu
    · exact ⟨u, hu, hup, hxu⟩
    · rw [List.mem_singleton.1 hu] at hup
      have hord := (List.pairwise_append.1 h.order).2.2 x hx s (List.mem_singleton_self s)
      exact absurd (hup ▸ encloses_of_link hp) hord
  own := (List.pairwise_append.1 h.own).1
  apart x hx u hu := h.apart x (List.mem_append_left _ hx) u (List.mem_append_left _ hu)
  order := (List.pairwise_append.1 h.order).1
  acyclic := h.acyclic

/-- The owner of an earlier span that shares an address with the last span encloses the last
span's owner. -/
theorem encloses_of_overlap (h : Laminar link (P ++ [s])) {u : ScopeSpan} (hu : u ∈ P)
    {a : UInt64} (hua : u.Contains a) (hsa : s.Contains a) : Encloses link u.owner s.owner := by
  have hord := (List.pairwise_append.1 h.order).2.2 u hu s (List.mem_singleton_self s)
  have hown := (List.pairwise_append.1 h.own).2.2 u hu s (List.mem_singleton_self s)
  by_contra hne
  by_cases heq : u.owner = s.owner
  · exact (hown heq).not_contains hua hsa
  · exact (h.apart u (List.mem_append_left _ hu) s (by simp) heq hne hord).not_contains hua hsa

/-- A span of a scope enclosed by `k` lies inside each span of `k` or shares no address with it:
it lies inside a span of its outer scope, which by induction on the chain does the same. -/
theorem within_or_apart (h : Laminar link S) {u : ScopeSpan} (hu : u ∈ S) :
    ∀ n, ∀ x ∈ S, follow link (n + 1) x.owner = some u.owner → x.Within u ∨ x.Apart u := by
  intro n
  induction n with
  | zero =>
    intro x hx hf
    obtain ⟨w, hw, hwu, hxw⟩ := h.nested x hx u.owner (by rwa [follow_one] at hf)
    by_cases hwu' : w = u
    · exact .inl (hwu' ▸ hxw)
    · exact .inr (hxw.apart (h.own_apart hw hu hwu' hwu))
  | succ n ih =>
    intro x hx hf
    rw [show n + 1 + 1 = 1 + (n + 1) by omega, follow_add, follow_one] at hf
    cases hp : link x.owner with
    | none => rw [hp] at hf; cases hf
    | some p =>
      rw [hp, Option.bind_some] at hf
      obtain ⟨w, hw, rfl, hxw⟩ := h.nested x hx _ hp
      rcases ih w hw hf with hwu | hwu
      · exact .inl (hxw.trans hwu)
      · exact .inr (hxw.apart hwu)

/-- No earlier span cuts into the last one. -/
theorem within_or_apart_last (h : Laminar link (P ++ [s])) {u : ScopeSpan} (hu : u ∈ P) :
    s.Within u ∨ s.Apart u := by
  have hord := (List.pairwise_append.1 h.order).2.2 u hu s (List.mem_singleton_self s)
  have hown := (List.pairwise_append.1 h.own).2.2 u hu s (List.mem_singleton_self s)
  by_cases heq : u.owner = s.owner
  · exact .inr (hown heq).symm
  · by_cases henc : Encloses link u.owner s.owner
    · obtain ⟨n, hn, hf⟩ := henc
      obtain ⟨m, rfl⟩ := Nat.exists_eq_add_of_lt hn
      exact h.within_or_apart (List.mem_append_left _ hu) m s (by simp)
        (by rwa [Nat.zero_add] at hf)
    · exact .inr (h.apart s (by simp) u (List.mem_append_left _ hu) (Ne.symm heq) hord henc)

/-- Before the last span is recorded, its owner's outer scope is what the lookup should answer at
its start. -/
theorem innermost_low (h : Laminar link (P ++ [s])) : Innermost link P s.low s.outer := by
  have hsl : s.Contains s.low := ScopeSpan.contains_low (h.nonempty s (by simp))
  rw [h.outer s (by simp)]
  cases hp : link s.owner with
  | none =>
    intro u hu hua
    exact not_encloses_of_link_eq_none hp (h.encloses_of_overlap hu hua hsl)
  | some p =>
    obtain ⟨u, hu, hup, hsu⟩ := h.nested s (by simp) p hp
    have huP : u ∈ P := by
      rcases List.mem_append.1 hu with hu | hu
      · exact hu
      · rw [List.mem_singleton.1 hu] at hup
        have hself : Encloses link s.owner s.owner := by
          have := encloses_of_link hp
          rwa [← hup] at this
        exact absurd hself (h.acyclic _)
    refine ⟨⟨u, huP, hup, hsl.of_within hsu⟩, fun v hv hva => ?_⟩
    obtain ⟨q, hq, hcase⟩ := (h.encloses_of_overlap hv hva hsl).cases
    rw [hp] at hq
    cases hq
    exact hcase

/-- On the last span, its owner is what the lookup should answer. -/
theorem innermost_last (h : Laminar link (P ++ [s])) {a : UInt64} (hsa : s.Contains a) :
    Innermost link (P ++ [s]) a (some s.owner) := by
  refine ⟨⟨s, by simp, rfl, hsa⟩, fun u hu hua => ?_⟩
  rcases List.mem_append.1 hu with hu | hu
  · exact .inr (h.encloses_of_overlap hu hua hsa)
  · rw [List.mem_singleton.1 hu]
    exact .inl rfl

/-- Recording laid-out spans one by one keeps the lookup answering the innermost owner, with
every transition at an end of a recorded span. -/
theorem record_run (h : Laminar link S) :
    (∀ a, Innermost link S a (inForce (S.foldl ScopeSpan.record ∅) a)) ∧
      ∀ k ∈ S.foldl ScopeSpan.record ∅, ∃ u ∈ S, k = u.low ∨ k = u.high := by
  induction S using List.reverseRecOn with
  | nil =>
    refine ⟨fun a => ?_, fun k hk => absurd hk TreeMap.not_mem_emptyc⟩
    rw [List.foldl_nil, inForce_eq_none_of_forall_lt (fun k hk => absurd hk TreeMap.not_mem_emptyc)]
    intro s hs
    cases hs
  | append_singleton P s ih =>
    obtain ⟨hinner, hkeys⟩ := ih h.init
    rw [List.foldl_append, List.foldl_cons, List.foldl_nil]
    have hlt := h.nonempty s (by simp)
    -- a recorded span either holds the new one or shares no address with it, so none of its ends
    -- lies strictly inside
    have hgap : ∀ k ∈ P.foldl ScopeSpan.record ∅, s.low < k → s.high ≤ k := by
      intro k hk hlk
      obtain ⟨u, hu, hku⟩ := hkeys k hk
      have hul := h.nonempty u (List.mem_append_left _ hu)
      rcases h.within_or_apart_last hu with hw | ha
      · unfold ScopeSpan.Within at hw
        rcases hku with rfl | rfl <;> grind
      · unfold ScopeSpan.Apart at ha
        rcases hku with rfl | rfl <;> grind
    have hstart : inForce (P.foldl ScopeSpan.record ∅) s.low = s.outer :=
      Innermost.unique h.acyclic (hinner s.low) h.innermost_low
    refine ⟨fun a => ?_, fun k hk => ?_⟩
    · rw [inForce_record hlt hgap hstart a]
      split
      · exact h.innermost_last ‹_›
      · exact (hinner a).append_of_not_contains ‹_›
    · rcases ScopeSpan.mem_record hk with hk | rfl | rfl
      · obtain ⟨u, hu, hku⟩ := hkeys k hk
        exact ⟨u, List.mem_append_left _ hu, hku⟩
      · exact ⟨s, by simp, .inl rfl⟩
      · exact ⟨s, by simp, .inr rfl⟩

end Laminar

/-- Recording spans laid out as a tree of scopes lays them out leaves at every address the
innermost owner of a span that contains it, and no scope where no span does. -/
theorem innermost_inForce_foldl_record {S : List ScopeSpan} (h : Laminar link S) (a : UInt64) :
    Innermost link S a (inForce (S.foldl ScopeSpan.record ∅) a) :=
  h.record_run.1 a

end Layout

end RemoteDebugger
