import RemoteDebugger.Symbols.Loader

/-!
# Line rows become disjoint spans

Over any list of rows, the locations `spanStep` makes one row late are exactly the spans
`SpanOf` describes, sequence by sequence, with positive length and pairwise disjoint
(`spanRun_spans_disjoint`).
-/

namespace RemoteDebugger.Loader

/-! ## Rows and runs -/

/-- A line-table row as the span builder is fed it: its address, the location it starts when it
has a usable file and line, and whether it ends a sequence. A location starts at its row's
address, and a row that ends a sequence starts none. -/
structure SpanRow where
  address : UInt64
  next : Option SourceLocation
  endSequence : Bool
  start_eq : ∀ l ∈ next, l.start = address
  none_of_end : endSequence = true → next = none

namespace SpanRow

/-- A row with a usable file and line, starting a location at its address. -/
def located (address : UInt64) (file : FileKey) (line column : UInt32) : SpanRow :=
  ⟨address, some ⟨address, 0, file, line, column⟩, false, by simp, by simp⟩

/-- A row that ends a sequence. -/
def finish (address : UInt64) : SpanRow := ⟨address, none, true, by simp, by simp⟩

/-- The row a pending location stands for: the usable row it was started by. -/
def ofPending (l : SourceLocation) : SpanRow := ⟨l.start, some l, false, by simp, by simp⟩

/-- A row that starts a location does not end a sequence. -/
theorem endSequence_of_next {q : SpanRow} {l : SourceLocation} (h : q.next = some l) :
    q.endSequence = false := by
  cases he : q.endSequence
  · rfl
  · simp [q.none_of_end he] at h

/-- A usable row is the row of the location it starts. -/
theorem ofPending_eq {q : SpanRow} {l : SourceLocation} (h : q.next = some l) : ofPending l = q := by
  have hend := endSequence_of_next h
  obtain ⟨address, next, endSequence, start_eq, none_of_end⟩ := q
  simp only at h hend
  subst h hend
  simp [ofPending, start_eq l rfl]

end SpanRow

/-- The rows a run from a pending location starts with: the pending location's own row. -/
def leadRows (pending : Option SourceLocation) : List SpanRow := pending.toList.map SpanRow.ofPending

/-- The locations the span builder emits when fed rows in order, from a pending location. -/
def spanRun : Option SourceLocation → List SpanRow → List SourceLocation
  | _, [] => []
  | pending, q :: rows =>
    (spanStep pending q.address q.next q.endSequence).2.toList ++
      spanRun (spanStep pending q.address q.next q.endSequence).1 rows

/-- The sequences of a row list: each is closed by its end-of-sequence row, and the last one
may be left open. -/
def sequences : List SpanRow → List (List SpanRow)
  | [] => []
  | q :: rows =>
    if q.endSequence then [q] :: sequences rows
    else match sequences rows with
      | [] => [[q]]
      | s :: ss => (q :: s) :: ss

/-- The first row of `rows` at an address above `a` closes a location started at `a` into `l`:
the rows before it lie at or below `a`, and `l` reaches up to it. -/
def ClosedBy (loc : SourceLocation) (a : UInt64) (rows : List SpanRow) (l : SourceLocation) : Prop :=
  ∃ mid s post, rows = mid ++ s :: post ∧ (∀ q ∈ mid, q.address ≤ a) ∧ a < s.address ∧
    l = { loc with length := s.address - a }

/-- A location the rows of one sequence make: the first usable row at an address starts it,
and the first row after it at a greater address ends it. -/
def SpanOf (rows : List SpanRow) (l : SourceLocation) : Prop :=
  ∃ pre r post loc, rows = pre ++ r :: post ∧ r.next = some loc ∧
    (∀ q ∈ pre, q.address = r.address → q.next = none) ∧ ClosedBy loc r.address post l

/-- No row but the last ends a sequence. -/
def EndsLast (rows : List SpanRow) : Prop :=
  ∀ pre q post, rows = pre ++ q :: post → q.endSequence = true → post = []

/-! ## One row -/

/-- Without a pending location, a row only becomes the pending one. -/
theorem spanRun_none_cons (q : SpanRow) (rows : List SpanRow) :
    spanRun none (q :: rows) = spanRun q.next rows := by
  simp [spanRun, spanStep]

/-- A row at the pending location's address that does not end the sequence is passed over. -/
theorem spanRun_skip {l : SourceLocation} {q : SpanRow} (rows : List SpanRow)
    (haddr : q.address = l.start) (hend : q.endSequence = false) :
    spanRun (some l) (q :: rows) = spanRun (some l) rows := by
  simp [spanRun, spanStep, haddr, hend]

/-- Any other row closes the pending location at its address, when that lies above the start,
and becomes the pending one itself. -/
theorem spanRun_close {l : SourceLocation} {q : SpanRow} (rows : List SpanRow)
    (hclose : ¬(q.address = l.start ∧ q.endSequence = false)) :
    spanRun (some l) (q :: rows) =
      (if l.start < q.address then [{ l with length := q.address - l.start }] else []) ++
        spanRun q.next rows := by
  have hstep : ¬(q.address = l.start ∧ (!q.endSequence) = true) := by simpa using hclose
  simp only [spanRun, spanStep, hstep, if_false]
  split <;> simp_all

/-! ## Spans, a row at a time -/

/-- A closed location keeps its start. -/
theorem ClosedBy.start_eq {loc l : SourceLocation} {a : UInt64} {rows : List SpanRow}
    (h : ClosedBy loc a rows l) : l.start = loc.start := by
  obtain ⟨_, _, _, _, _, _, rfl⟩ := h
  rfl

/-- A location closed after the usable row that started it starts at that row's address. -/
theorem ClosedBy.start_eq_address {loc l : SourceLocation} {a : UInt64} {rows : List SpanRow}
    {r : SpanRow} (h : ClosedBy loc a rows l) (hr : r.next = some loc) : l.start = r.address := by
  rw [h.start_eq, r.start_eq loc hr]

/-- A location is closed by the first row of a list above its start, or by one further on when
that row lies at or below it. -/
theorem closedBy_cons {loc l : SourceLocation} {a : UInt64} {q : SpanRow} {rows : List SpanRow} :
    ClosedBy loc a (q :: rows) l ↔
      (a < q.address ∧ l = { loc with length := q.address - a }) ∨
        (q.address ≤ a ∧ ClosedBy loc a rows l) := by
  constructor
  · rintro ⟨mid, s, post, hrows, hmid, hlt, rfl⟩
    cases mid with
    | nil =>
      obtain ⟨rfl, -⟩ := List.cons.inj hrows
      exact .inl ⟨hlt, rfl⟩
    | cons x mid =>
      simp only [List.cons_append, List.cons.injEq] at hrows
      obtain ⟨rfl, hrest⟩ := hrows
      exact .inr ⟨hmid q List.mem_cons_self,
        mid, s, post, hrest, fun y hy => hmid y (List.mem_cons_of_mem q hy), hlt, rfl⟩
  · rintro (⟨hlt, rfl⟩ | ⟨hle, mid, s, post, hrows, hmid, hlt, rfl⟩)
    · exact ⟨[], q, rows, rfl, by simp, hlt, rfl⟩
    · refine ⟨q :: mid, s, post, by rw [hrows]; rfl, ?_, hlt, rfl⟩
      intro y hy
      rcases List.mem_cons.mp hy with rfl | hy
      · exact hle
      · exact hmid y hy

/-- Nothing closes a location in an empty list. -/
theorem not_closedBy_nil {loc l : SourceLocation} {a : UInt64} : ¬ClosedBy loc a [] l := by
  rintro ⟨mid, s, post, hrows, -⟩
  simp at hrows

/-- A span of a list is started by its first row, or is a span of the rest that the first row
does not take the start of. -/
theorem spanOf_cons {q : SpanRow} {rows : List SpanRow} {l : SourceLocation} :
    SpanOf (q :: rows) l ↔
      (∃ loc, q.next = some loc ∧ ClosedBy loc q.address rows l) ∨
        ((q.address = l.start → q.next = none) ∧ SpanOf rows l) := by
  constructor
  · rintro ⟨pre, r, post, loc, hrows, hr, hpre, hclosed⟩
    -- the start of the span is the address of its row
    have hstart : l.start = r.address := hclosed.start_eq_address hr
    cases pre with
    | nil =>
      obtain ⟨rfl, rfl⟩ := List.cons.inj hrows
      exact .inl ⟨loc, hr, hclosed⟩
    | cons x pre =>
      simp only [List.cons_append, List.cons.injEq] at hrows
      obtain ⟨rfl, hrest⟩ := hrows
      exact .inr ⟨fun h => hpre q List.mem_cons_self (h.trans hstart),
        pre, r, post, loc, hrest, hr, fun y hy => hpre y (List.mem_cons_of_mem q hy), hclosed⟩
  · rintro (⟨loc, hq, hclosed⟩ | ⟨hq, pre, r, post, loc, hrows, hr, hpre, hclosed⟩)
    · exact ⟨[], q, rows, loc, rfl, hq, by simp, hclosed⟩
    · have hstart : l.start = r.address := hclosed.start_eq_address hr
      refine ⟨q :: pre, r, post, loc, by rw [hrows]; rfl, hr, ?_, hclosed⟩
      intro y hy hy'
      rcases List.mem_cons.mp hy with rfl | hy
      · exact hq (hy'.trans hstart.symm)
      · exact hpre y hy hy'

/-- The row that starts a span is one of the rows. -/
theorem SpanOf.exists_start {rows : List SpanRow} {l : SourceLocation} (h : SpanOf rows l) :
    ∃ r ∈ rows, r.address = l.start ∧ r.next.isSome := by
  obtain ⟨pre, r, post, loc, rfl, hr, -, hclosed⟩ := h
  exact ⟨r, by simp, (hclosed.start_eq_address hr).symm, by simp [hr]⟩

/-- A row that starts no location adds no span. -/
theorem spanOf_cons_of_next_none {q : SpanRow} {rows : List SpanRow} {l : SourceLocation}
    (hq : q.next = none) : SpanOf (q :: rows) l ↔ SpanOf rows l := by
  rw [spanOf_cons]
  simp [hq]

/-- A row at the address of a usable row just before it adds no span: it neither starts one
nor closes that row's. -/
theorem spanOf_skip {u q : SpanRow} {rows : List SpanRow} {L : SourceLocation}
    (hu : u.next = some L) (hq : q.address = u.address) (l : SourceLocation) :
    SpanOf (u :: q :: rows) l ↔ SpanOf (u :: rows) l := by
  have hnot : ¬u.next = none := by simp [hu]
  rw [spanOf_cons, spanOf_cons (q := u)]
  constructor
  · rintro (⟨loc, hloc, hcl⟩ | ⟨hstart, hrest⟩)
    · rcases closedBy_cons.mp hcl with ⟨hlt, -⟩ | ⟨-, hclosed⟩
      · rw [hq] at hlt
        exact absurd hlt (UInt64.lt_irrefl _)
      · exact .inl ⟨loc, hloc, hclosed⟩
    · -- the span does not start at u's address, so q, at that address, does not start it
      refine .inr ⟨hstart, ?_⟩
      rcases spanOf_cons.mp hrest with ⟨loc, hloc, hclosed⟩ | ⟨-, h⟩
      · have hqstart : q.address = l.start := (hclosed.start_eq_address hloc).symm
        exact absurd (hstart (hq.symm.trans hqstart)) hnot
      · exact h
  · rintro (⟨loc, hloc, hclosed⟩ | ⟨hstart, hrest⟩)
    · exact .inl ⟨loc, hloc, closedBy_cons.mpr (.inr ⟨UInt64.le_of_eq hq, hclosed⟩)⟩
    · refine .inr ⟨hstart, spanOf_cons.mpr (.inr ⟨fun h => ?_, hrest⟩)⟩
      exact absurd (hstart (hq.symm.trans h)) hnot

/-! ## Sequences -/

/-- Past the first row of a sequence, no row but the last ends it either. -/
theorem EndsLast.tail {q : SpanRow} {rows : List SpanRow} (h : EndsLast (q :: rows)) :
    EndsLast rows :=
  fun pre x post hrows hx => h (q :: pre) x post (by rw [hrows]; rfl) hx

/-- A row that ends a sequence has no row after it. -/
theorem EndsLast.eq_nil {q : SpanRow} {rows : List SpanRow} (h : EndsLast (q :: rows))
    (hq : q.endSequence = true) : rows = [] :=
  h [] q rows rfl hq

/-- A row that closes a usable row's location just before it, at a greater address or by
ending the sequence, adds that span, and otherwise the spans of the rows from it on. -/
theorem spanOf_close {u q : SpanRow} {rows : List SpanRow} {L : SourceLocation}
    (hu : u.next = some L) (hle : u.address ≤ q.address)
    (hrows : ∀ x ∈ rows, q.address ≤ x.address)
    (hclose : ¬(q.address = u.address ∧ q.endSequence = false)) (hend : EndsLast (q :: rows))
    (l : SourceLocation) :
    SpanOf (u :: q :: rows) l ↔
      (u.address < q.address ∧ l = { L with length := q.address - u.address }) ∨
        SpanOf (q :: rows) l := by
  -- a row at `u`'s address that closes it ends the sequence, and so is the last row
  have hlast : q.address = u.address → rows = [] := fun h =>
    hend.eq_nil (by cases hq : q.endSequence <;> simp_all)
  rw [spanOf_cons (q := u)]
  constructor
  · rintro (⟨loc, hloc, hcl⟩ | ⟨-, hrest⟩)
    · rw [hu] at hloc
      cases hloc
      rcases closedBy_cons.mp hcl with ⟨hlt, rfl⟩ | ⟨hqle, hclosed⟩
      · exact .inl ⟨hlt, rfl⟩
      · rw [hlast (UInt64.le_antisymm hqle hle)] at hclosed
        exact absurd hclosed not_closedBy_nil
    · exact .inr hrest
  · rintro (⟨hlt, rfl⟩ | hrest)
    · exact .inl ⟨L, hu, closedBy_cons.mpr (.inl ⟨hlt, rfl⟩)⟩
    · refine .inr ⟨fun hstart => ?_, hrest⟩
      -- the row that starts the span lies above `u`'s address
      obtain ⟨r, hr, hraddr, hrnext⟩ := hrest.exists_start
      rcases List.mem_cons.mp hr with rfl | hr
      · obtain ⟨loc, hloc⟩ := Option.isSome_iff_exists.mp hrnext
        exact absurd ⟨hraddr.trans hstart.symm, SpanRow.endSequence_of_next hloc⟩ hclose
      · have hqr := hrows r hr
        have hqu : q.address = u.address := by
          simp only [UInt64.le_iff_toNat_le, ← UInt64.toNat_inj] at hle hqr hraddr hstart ⊢
          omega
        rw [hlast hqu] at hr
        cases hr

/-! ## Runs -/

/-- A run from the location a row leaves pending sees the same spans as the rows from that
row on. -/
theorem spanOf_leadRows_next (q : SpanRow) (rows : List SpanRow) (l : SourceLocation) :
    SpanOf (leadRows q.next ++ rows) l ↔ SpanOf (q :: rows) l := by
  cases hq : q.next with
  | none => exact (spanOf_cons_of_next_none hq).symm
  | some loc => simp [leadRows, SpanRow.ofPending_eq hq]

/-- The rows a run goes on from are among the rows from the current one on. -/
theorem leadRows_next_sublist (q : SpanRow) (rows : List SpanRow) :
    (leadRows q.next ++ rows).Sublist (q :: rows) := by
  cases hq : q.next with
  | none => exact List.sublist_cons_self q rows
  | some loc => simp [leadRows, SpanRow.ofPending_eq hq]

/-- The locations a run emits over a sequence whose addresses do not go down are exactly the
spans of its rows, counting the pending location as the row in front. -/
theorem mem_spanRun {pending : Option SourceLocation} {rows : List SpanRow}
    (hsorted : (leadRows pending ++ rows).Pairwise (·.address ≤ ·.address)) (hend : EndsLast rows)
    (l : SourceLocation) : l ∈ spanRun pending rows ↔ SpanOf (leadRows pending ++ rows) l := by
  induction rows generalizing pending with
  | nil =>
    -- a pending location alone is closed by nothing
    cases pending with
    | none => simp [spanRun, leadRows, SpanOf]
    | some loc =>
      simp only [spanRun, leadRows, Option.toList_some, List.map_cons, List.map_nil,
        List.singleton_append, List.not_mem_nil, false_iff, spanOf_cons]
      rintro (⟨_, -, hclosed⟩ | ⟨-, pre, r, post, _, hrows, -⟩)
      · exact not_closedBy_nil hclosed
      · simp at hrows
  | cons q rows ih =>
    cases pending with
    | none =>
      rw [spanRun_none_cons, ih ((hsorted.sublist (leadRows_next_sublist q rows))) hend.tail,
        spanOf_leadRows_next]
      rfl
    | some L =>
      have hsorted' : (SpanRow.ofPending L :: q :: rows).Pairwise (·.address ≤ ·.address) := hsorted
      by_cases hskip : q.address = L.start ∧ q.endSequence = false
      · have hsub : (leadRows (some L) ++ rows).Sublist (leadRows (some L) ++ q :: rows) :=
          (List.sublist_cons_self q rows).append_left _
        rw [spanRun_skip rows hskip.1 hskip.2, ih (hsorted.sublist hsub) hend.tail]
        exact (spanOf_skip (u := SpanRow.ofPending L) rfl hskip.1 l).symm
      · have hcons := List.pairwise_cons.mp hsorted'
        have hrest := List.pairwise_cons.mp hcons.2
        rw [spanRun_close rows hskip, List.mem_append,
          ih ((hcons.2).sublist (leadRows_next_sublist q rows)) hend.tail,
          spanOf_leadRows_next]
        show _ ↔ SpanOf (SpanRow.ofPending L :: q :: rows) l
        rw [spanOf_close (u := SpanRow.ofPending L) rfl (hcons.1 q List.mem_cons_self) hrest.1
          hskip hend l]
        -- the location closed here is emitted exactly when the row lies above its start
        have hmem : l ∈ (if L.start < q.address then [{ L with length := q.address - L.start }]
            else []) ↔ L.start < q.address ∧ l = { L with length := q.address - L.start } := by
          split
          next h => simp [h]
          next h => simp [h]
        rw [hmem]
        rfl

/-- A span up to an address above its start ends at that address. -/
theorem toNat_add_sub {a b : UInt64} (h : a < b) : a.toNat + (b - a).toNat = b.toNat := by
  rw [UInt64.toNat_sub_of_le _ _ (UInt64.le_of_lt h)]
  rw [UInt64.lt_iff_toNat_lt] at h
  omega

/-- A span reaches from its start up to the address of the row that closes it. -/
theorem SpanOf.exists_end {rows : List SpanRow} {l : SourceLocation} (h : SpanOf rows l) :
    ∃ s ∈ rows, l.start < s.address ∧ l.start.toNat + l.length.toNat = s.address.toNat := by
  obtain ⟨pre, r, post, loc, rfl, hnext, -, mid, s, post', rfl, -, hlt, rfl⟩ := h
  have hstart : loc.start = r.address := r.start_eq loc hnext
  refine ⟨s, by simp, ?_, ?_⟩
  · show loc.start < s.address
    rw [hstart]
    exact hlt
  · show loc.start.toNat + (s.address - r.address).toNat = s.address.toNat
    rw [hstart]
    exact toNat_add_sub hlt

/-- Every span is nonempty. -/
theorem SpanOf.length_pos {rows : List SpanRow} {l : SourceLocation} (h : SpanOf rows l) :
    0 < l.length := by
  obtain ⟨s, -, hlt, hend⟩ := h.exists_end
  rw [UInt64.lt_iff_toNat_lt] at hlt ⊢
  simp only [UInt64.toNat_zero]
  omega

/-- In a sequence whose addresses do not go down, every span ends at or below the row that ends
the sequence. -/
theorem SpanOf.end_le_of_endSequence {rows : List SpanRow}
    (hsorted : rows.Pairwise (·.address ≤ ·.address)) (hend : EndsLast rows) {l : SourceLocation}
    (h : SpanOf rows l) {q : SpanRow} (hq : q ∈ rows) (hqend : q.endSequence = true) :
    l.start.toNat + l.length.toNat ≤ q.address.toNat := by
  obtain ⟨s, hs, -, hsend⟩ := h.exists_end
  -- the end row is the last row, so the closing row lies before it or is it
  obtain ⟨pre, post, rfl⟩ := List.append_of_mem hq
  obtain rfl : post = [] := hend pre q post rfl hqend
  rw [hsend, ← UInt64.le_iff_toNat_le]
  rcases List.mem_append.mp hs with hs | hs
  · exact (List.pairwise_append.mp hsorted).2.2 s hs q (List.mem_singleton_self q)
  · rw [List.mem_singleton.mp hs]
    exact UInt64.le_refl _

/-- The locations a run emits over a sequence whose addresses do not go down follow one
another: each ends where or before the next begins. -/
theorem pairwise_spanRun {pending : Option SourceLocation} {rows : List SpanRow}
    (hsorted : (leadRows pending ++ rows).Pairwise (·.address ≤ ·.address)) (hend : EndsLast rows) :
    (spanRun pending rows).Pairwise (fun l m => l.start.toNat + l.length.toNat ≤ m.start.toNat) := by
  induction rows generalizing pending with
  | nil => simp [spanRun]
  | cons q rows ih =>
    cases pending with
    | none =>
      rw [spanRun_none_cons]
      exact ih (hsorted.sublist (leadRows_next_sublist q rows)) hend.tail
    | some L =>
      by_cases hskip : q.address = L.start ∧ q.endSequence = false
      · have hsub : (leadRows (some L) ++ rows).Sublist (leadRows (some L) ++ q :: rows) :=
          (List.sublist_cons_self q rows).append_left _
        rw [spanRun_skip rows hskip.1 hskip.2]
        exact ih (hsorted.sublist hsub) hend.tail
      · have hcons := List.pairwise_cons.mp
          (show (SpanRow.ofPending L :: q :: rows).Pairwise (·.address ≤ ·.address) from hsorted)
        have hrest := List.pairwise_cons.mp hcons.2
        have hnext := hcons.2.sublist (leadRows_next_sublist q rows)
        rw [spanRun_close rows hskip, List.pairwise_append]
        refine ⟨by split <;> simp, ih hnext hend.tail, ?_⟩
        -- the location closed here ends at this row, and every later one starts at a row from
        -- this one on
        intro x hx y hy
        split at hx
        next hlt =>
          rw [List.mem_singleton] at hx
          subst hx
          have hy' := (mem_spanRun hnext hend.tail y).mp hy
          rw [spanOf_leadRows_next] at hy'
          obtain ⟨r, hr, hraddr, -⟩ := hy'.exists_start
          have hqr : q.address ≤ r.address := by
            rcases List.mem_cons.mp hr with rfl | hr
            · exact UInt64.le_refl _
            · exact hrest.1 r hr
          rw [UInt64.le_iff_toNat_le, hraddr] at hqr
          calc L.start.toNat + (q.address - L.start).toNat = q.address.toNat := toNat_add_sub hlt
            _ ≤ y.start.toNat := hqr
        next => simp at hx

/-! ## Sequences one after another -/

/-- The locations of a run over sequences from a pending location: the first sequence goes on
from it, and each later one starts afresh. -/
def runSequences (pending : Option SourceLocation) : List (List SpanRow) → List SourceLocation
  | [] => []
  | s :: ss => spanRun pending s ++ ss.flatMap (spanRun none)

theorem runSequences_none (ss : List (List SpanRow)) :
    runSequences none ss = ss.flatMap (spanRun none) := by
  cases ss <;> simp [runSequences]

/-- An end-of-sequence row leaves nothing pending. -/
theorem spanStep_end (pending : Option SourceLocation) {q : SpanRow} (hq : q.endSequence = true) :
    (spanStep pending q.address q.next q.endSequence).1 = none := by
  have hnone := q.none_of_end hq
  cases pending <;> simp [spanStep, hq, hnone]

/-- A run over rows is a run over their sequences, each after the first from nothing pending. -/
theorem spanRun_eq_runSequences (pending : Option SourceLocation) (rows : List SpanRow) :
    spanRun pending rows = runSequences pending (sequences rows) := by
  induction rows generalizing pending with
  | nil => rfl
  | cons q rows ih =>
    by_cases hq : q.endSequence = true
    · rw [sequences, if_pos hq, runSequences, ← runSequences_none, ← ih]
      simp only [spanRun, spanStep_end pending hq, List.append_nil]
    · rw [sequences, if_neg hq]
      cases hs : sequences rows with
      | nil => simp only [spanRun, ih, hs, runSequences, List.append_nil, List.flatMap_nil]
      | cons s ss => simp only [spanRun, ih, hs, runSequences, List.append_assoc]

/-- The sequences of a row list are its rows, cut after every end of sequence. -/
theorem flatten_sequences (rows : List SpanRow) : (sequences rows).flatten = rows := by
  induction rows with
  | nil => rfl
  | cons q rows ih =>
    rw [sequences]
    split
    · simp [ih]
    · cases hs : sequences rows with
      | nil => simp_all
      | cons s ss =>
        rw [hs, List.flatten_cons] at ih
        simp [ih]

/-- A row that does not end a sequence can stand in front of one. -/
theorem EndsLast.cons {q : SpanRow} {rows : List SpanRow} (hq : q.endSequence = false)
    (h : EndsLast rows) : EndsLast (q :: rows) := by
  intro pre x post hrows hx
  cases pre with
  | nil =>
    obtain ⟨rfl, -⟩ := List.cons.inj hrows
    simp [hq] at hx
  | cons y pre =>
    simp only [List.cons_append, List.cons.injEq] at hrows
    exact h pre x post hrows.2 hx

/-- A single row is a sequence. -/
theorem endsLast_singleton (q : SpanRow) : EndsLast [q] := by
  intro pre x post hrows _
  cases pre with
  | nil => exact (List.cons.inj hrows).2.symm
  | cons y pre =>
    simp only [List.cons_append, List.cons.injEq] at hrows
    simp at hrows

/-- In every sequence of a row list, only the last row may end it. -/
theorem endsLast_of_mem_sequences {rows : List SpanRow} {seq : List SpanRow}
    (h : seq ∈ sequences rows) : EndsLast seq := by
  induction rows generalizing seq with
  | nil => simp [sequences] at h
  | cons q rows ih =>
    rw [sequences] at h
    split at h
    · rcases List.mem_cons.mp h with rfl | h
      · exact endsLast_singleton q
      · exact ih h
    · next hq =>
      have hq' : q.endSequence = false := by simpa using hq
      cases hs : sequences rows with
      | nil =>
        rw [hs] at h
        simp only [List.mem_singleton] at h
        subst h
        exact endsLast_singleton q
      | cons s ss =>
        rw [hs] at h ih
        rcases List.mem_cons.mp h with rfl | h
        · exact (ih List.mem_cons_self).cons hq'
        · exact ih (List.mem_cons_of_mem s h)

/-! ## Line tables -/

/-- The locations the span builder emits over a line table whose addresses do not go down
within any sequence. The run goes sequence by sequence, each from nothing pending. Within a
sequence the locations are exactly its spans: the first usable row at an address starts one,
and the first later row at a greater address ends it. Each is nonempty, ends at or below the
row that ends its sequence, and ends where or before the next one begins. -/
theorem spanRun_spans_disjoint (rows : List SpanRow)
    (hsorted : ∀ seq ∈ sequences rows, seq.Pairwise (fun p q => p.address ≤ q.address)) :
    spanRun none rows = (sequences rows).flatMap (spanRun none) ∧
      ∀ seq ∈ sequences rows,
        (∀ l, l ∈ spanRun none seq ↔ SpanOf seq l) ∧
        (∀ l ∈ spanRun none seq, 0 < l.length ∧
          ∀ q ∈ seq, q.endSequence = true → l.start.toNat + l.length.toNat ≤ q.address.toNat) ∧
        (spanRun none seq).Pairwise
          (fun l m => l.start.toNat + l.length.toNat ≤ m.start.toNat) := by
  refine ⟨by rw [spanRun_eq_runSequences, runSequences_none], fun seq hseq => ?_⟩
  have hend := endsLast_of_mem_sequences hseq
  have hsort : (leadRows none ++ seq).Pairwise (·.address ≤ ·.address) := hsorted seq hseq
  have hmem : ∀ l, l ∈ spanRun none seq ↔ SpanOf seq l := mem_spanRun hsort hend
  refine ⟨hmem, fun l hl => ?_, pairwise_spanRun hsort hend⟩
  have hspan := (hmem l).mp hl
  exact ⟨hspan.length_pos, fun q hq hqend =>
    hspan.end_le_of_endSequence (hsorted seq hseq) hend hq hqend⟩

/-- Of two rows at one address, the first starts the span and the second is passed over. -/
theorem spanRun_spans_disjoint_firstRowWins :
    SpanOf [SpanRow.located 0x10 ⟨1⟩ 3 0, SpanRow.located 0x10 ⟨1⟩ 9 0,
        SpanRow.located 0x14 ⟨1⟩ 4 0, SpanRow.finish 0x20] ⟨0x10, 4, ⟨1⟩, 3, 0⟩ ∧
      ¬SpanOf [SpanRow.located 0x10 ⟨1⟩ 3 0, SpanRow.located 0x10 ⟨1⟩ 9 0,
        SpanRow.located 0x14 ⟨1⟩ 4 0, SpanRow.finish 0x20] ⟨0x10, 4, ⟨1⟩, 9, 0⟩ := by
  have h := spanRun_spans_disjoint [SpanRow.located 0x10 ⟨1⟩ 3 0, SpanRow.located 0x10 ⟨1⟩ 9 0,
    SpanRow.located 0x14 ⟨1⟩ 4 0, SpanRow.finish 0x20] (by decide)
  have hspans := (h.2 _ List.mem_cons_self).1
  exact ⟨(hspans _).mp (by decide), fun hspan => absurd ((hspans _).mpr hspan) (by decide)⟩

end RemoteDebugger.Loader
