import RemoteDebugger.Dwarf.Frame
import RemoteDebugger.Proofs.Dwarf.Reading

/-!
# The rows of an unwind table

Evaluating a table's instructions changes the row being built, the top of a stack of rows, and
where the next row starts; a row takes the next start only when it begins. This module shows that
the stack always holds a row and that no instruction moves the start of the row being built, so
that the first row of every FDE's table starts at the FDE's first address
(`FrameSource.first_start_of_frames`).
-/

namespace RemoteDebugger.Dwarf

namespace UnwindContext

theorem size_modifyRow (c : UnwindContext) (f : UnwindRow → UnwindRow) :
    (c.modifyRow f).stack.size = c.stack.size := by
  simp [modifyRow]

theorem row_modifyRow {c : UnwindContext} (hc : 0 < c.stack.size) (f : UnwindRow → UnwindRow) :
    (c.modifyRow f).row = f c.row := by
  have hlast : c.stack.size - 1 < c.stack.size := by omega
  simp [modifyRow, row, Array.back?, Array.getElem?_modify, Array.getElem?_eq_getElem hlast]

end UnwindContext

/-- Setting a register's rule keeps where the row starts. -/
theorem UnwindRow.start_setRule {r r' : UnwindRow} {reg : Nat} {rule : RegRule}
    (h : r.setRule reg rule = .ok r') : r'.start = r.start := by
  unfold UnwindRow.setRule at h
  split at h
  · split at h <;> cases h <;> rfl
  · split at h
    · cases h
      rfl
    · split at h
      · cases h
        rfl
      · cases h

namespace Table

open UnwindContext

/-- One instruction keeps a row on the stack and keeps where the row being built starts; it
moves only where the next row starts. -/
theorem evaluate_row {t : Table} {c : UnwindContext} {op : CfaOp} {r : Bool × Table × UnwindContext}
    (h : t.evaluate c op = .ok r) (hc : 0 < c.stack.size) :
    0 < r.2.2.stack.size ∧ r.2.2.row.start = c.row.start := by
  -- an instruction that changes the row changes its rules or its CFA rule only
  have hmodify : ∀ f : UnwindRow → UnwindRow, (f c.row).start = c.row.start →
      0 < (c.modifyRow f).stack.size ∧ (c.modifyRow f).row.start = c.row.start :=
    fun f hf => ⟨by rw [size_modifyRow]; exact hc, by rw [row_modifyRow hc, hf]⟩
  cases op with
  | setLoc a =>
    simp only [evaluate] at h
    split at h <;> cases h
    exact ⟨hc, rfl⟩
  | advanceLoc delta =>
    simp only [evaluate, bind, Except.bind] at h
    split at h <;> cases h
    exact ⟨hc, rfl⟩
  | defCfa reg off =>
    cases h
    exact hmodify _ rfl
  | defCfaRegister reg =>
    simp only [evaluate] at h
    split at h <;> cases h
    exact hmodify _ rfl
  | defCfaOffset off =>
    simp only [evaluate] at h
    split at h <;> cases h
    exact hmodify _ rfl
  | defCfaExpression =>
    cases h
    exact hmodify _ rfl
  | rule reg rule =>
    cases hrow : c.row.setRule reg rule with
    | error e => simp [evaluate, hrow, bind, Except.bind] at h
    | ok row =>
      simp only [evaluate, hrow, bind, Except.bind, pure, Except.pure, Except.ok.injEq] at h
      subst h
      exact hmodify _ (UnwindRow.start_setRule hrow)
  | restore reg =>
    cases hinit : c.initialRuleFor reg with
    | none => simp [evaluate, hinit] at h
    | some rule =>
      cases hrow : c.row.setRule reg rule with
      | error e => simp [evaluate, hinit, hrow, bind, Except.bind] at h
      | ok row =>
        simp only [evaluate, hinit, hrow, bind, Except.bind, pure, Except.pure, Except.ok.injEq] at h
        subst h
        exact hmodify _ (UnwindRow.start_setRule hrow)
  | remember =>
    simp only [evaluate] at h
    split at h <;> cases h
    simp [row]
  | restoreState =>
    dsimp only [evaluate] at h
    by_cases hsize : c.stack.size ≤ if c.initialized = true ∧ c.initialRule.isNone = true then 2 else 1
    · rw [if_pos hsize] at h
      cases h
    · rw [if_neg hsize] at h
      cases h
      -- the row below takes the place of the top one, at the top one's start
      have hpop : 0 < c.stack.pop.size := by
        simp only [Array.size_pop]
        split at hsize <;> omega
      refine ⟨by rw [size_modifyRow]; exact hpop, ?_⟩
      rw [row_modifyRow hpop]
  | nop =>
    cases h
    exact ⟨hc, rfl⟩

/-- Running instructions up to the end of a row keeps a row on the stack, and the row it closes
is the row being built, at the start it had. -/
theorem nextRow_go_row (b : Bases) : ∀ (fuel : Nat) (t : Table) (c : UnwindContext)
    {r : Option UnwindRow × Table × UnwindContext}, nextRow.go b fuel t c = .ok r →
      0 < c.stack.size → 0 < r.2.2.stack.size ∧ ∀ row ∈ r.1, row.start = c.row.start
  | 0, t, c, r, h, hc => by
    cases h
    exact ⟨hc, nofun⟩
  | fuel + 1, t, c, r, h, hc => by
    unfold nextRow.go at h
    split at h
    · -- out of instructions: the last row once, then nothing
      split at h <;> cases h
      · exact ⟨hc, nofun⟩
      · exact ⟨hc, fun row hrow => by cases hrow; rfl⟩
    · cases hread : StateT.run (t.instruction b) t.input with
      | error e => simp [hread, bind, Except.bind] at h
      | ok p =>
        obtain ⟨op, input⟩ := p
        simp only [hread, bind, Except.bind] at h
        split at h
        · cases h
        · rename_i q heval
          obtain ⟨closes, t', c'⟩ := q
          obtain ⟨hc', hstart⟩ := evaluate_row heval hc
          dsimp only at h hc' hstart
          split at h
          · -- the instruction closes the row being built
            cases h
            exact ⟨hc', fun row hrow => by cases hrow; exact hstart⟩
          · obtain ⟨hsize, hrows⟩ := nextRow_go_row b fuel t' c' h hc'
            exact ⟨hsize, fun row hrow => (hrows row hrow).trans hstart⟩

/-- A row starts where the table says the next row starts. -/
theorem nextRow_row {t : Table} {b : Bases} {c : UnwindContext}
    {r : Option UnwindRow × Table × UnwindContext} (h : t.nextRow b c = .ok r)
    (hc : 0 < c.stack.size) : 0 < r.2.2.stack.size ∧ ∀ row ∈ r.1, row.start = t.nextStart := by
  unfold nextRow at h
  have hc' : 0 < (c.modifyRow fun r => { r with start := t.nextStart }).stack.size := by
    rw [size_modifyRow]
    exact hc
  obtain ⟨hsize, hrows⟩ := nextRow_go_row b _ t _ h hc'
  refine ⟨hsize, fun row hrow => ?_⟩
  rw [hrows row hrow, row_modifyRow hc]

/-- Gathering a table's rows keeps the rows gathered before and a row on the stack. -/
theorem rows_prefix (b : Bases) : ∀ (fuel : Nat) (t : Table) (c : UnwindContext)
    (acc : Array UnwindRow) {r : Array UnwindRow × UnwindContext}, t.rows b fuel c acc = .ok r →
      0 < c.stack.size → 0 < r.2.stack.size ∧ acc.toList <+: r.1.toList
  | 0, t, c, acc, r, h, hc => by
    cases h
    exact ⟨hc, List.prefix_refl _⟩
  | fuel + 1, t, c, acc, r, h, hc => by
    simp only [rows, bind, Except.bind] at h
    split at h
    · cases h
    · rename_i q hnext
      obtain ⟨hsize, -⟩ := nextRow_row hnext hc
      obtain ⟨row?, t', c'⟩ := q
      cases row? with
      | none =>
        cases h
        exact ⟨hsize, List.prefix_refl _⟩
      | some row =>
        obtain ⟨hsize', hpre⟩ := rows_prefix b fuel t' c' (acc.push row) h hsize
        refine ⟨hsize', List.IsPrefix.trans ?_ hpre⟩
        rw [Array.toList_push]
        exact List.prefix_append _ _

/-- The first row of a table starts where the table says its next row starts. -/
theorem rows_first_start {b : Bases} {fuel : Nat} {t : Table} {c : UnwindContext}
    {r : Array UnwindRow × UnwindContext} (h : t.rows b fuel c #[] = .ok r)
    (hc : 0 < c.stack.size) (hr : 0 < r.1.size) : r.1[0].start = t.nextStart := by
  cases fuel with
  | zero =>
    cases h
    simp at hr
  | succ fuel =>
    simp only [rows, bind, Except.bind] at h
    split at h
    · cases h
    · rename_i q hnext
      obtain ⟨hsize, hstart⟩ := nextRow_row hnext hc
      obtain ⟨row?, t', c'⟩ := q
      cases row? with
      | none =>
        cases h
        simp at hr
      | some row =>
        -- the row of the first step stays first
        obtain ⟨-, hpre⟩ := rows_prefix b fuel t' c' (#[].push row) h hsize
        have hfirst : r.1.toList.head? = some row := by
          obtain ⟨rest, hrest⟩ := hpre
          rw [← hrest]
          rfl
        rw [← hstart row rfl]
        have hzero : r.1[0]? = some row := by simpa [List.head?_eq_getElem?] using hfirst
        rw [Array.getElem?_eq_getElem hr, Option.some.injEq] at hzero
        rw [hzero]

end Table

/-- Keeping the CIE's rules keeps a row on the stack. -/
theorem UnwindContext.saveInitial_stacked {c c' : UnwindContext} (h : c.saveInitial = .ok c')
    (hc : 0 < c.stack.size) : 0 < c'.stack.size := by
  unfold UnwindContext.saveInitial at h
  split at h
  · cases h
    exact hc
  · cases h
    exact hc
  · split at h
    · cases h
    · cases h
      rw [Array.size_append]
      exact Nat.lt_of_lt_of_le hc (Nat.le_add_left _ _)

theorem mapError_eq_ok {ε ε' α : Type} {f : ε → ε'} {x : Except ε α} {a : α} :
    x.mapError f = .ok a ↔ x = .ok a := by
  cases x with
  | error e => exact ⟨nofun, nofun⟩
  | ok b => exact ⟨fun h => by cases h; rfl, fun h => by cases h; rfl⟩

namespace FrameSource

/-- The first row of an FDE's table starts at the FDE's first address. -/
theorem fdeRows_first_start {src : FrameSource} {fde : Fde} {rows : Array UnwindRow}
    (h : src.fdeRows fde = .ok rows) (hr : 0 < rows.size) : rows[0].start = fde.initial := by
  unfold fdeRows at h
  -- the CIE's instructions, then the FDE's from the context they leave
  obtain ⟨⟨_, c⟩, hcie, h⟩ := except_bind_eq_ok.1 h
  obtain ⟨c', hsave, h⟩ := except_bind_eq_ok.1 h
  obtain ⟨⟨rows', _⟩, htable, h⟩ := except_bind_eq_ok.1 h
  cases h
  have hc : 0 < c.stack.size := (Table.rows_prefix _ _ _ _ _ (mapError_eq_ok.1 hcie) (by decide)).1
  exact Table.rows_first_start (mapError_eq_ok.1 htable)
    (UnwindContext.saveInitial_stacked (mapError_eq_ok.1 hsave) hc) hr

/-- The FDE loop keeps, for every FDE gathered, its table's first row at its first address. -/
theorem frames_go_first_start (src : FrameSource) : ∀ (fuel : Nat) (c : Cursor)
    (acc : Array (Nat × Array UnwindRow)) {frames : Array (Nat × Array UnwindRow)},
    FrameSource.frames.go src fuel c acc = .ok frames →
      (∀ p ∈ acc, ∀ h : 0 < p.2.size, p.2[0].start = p.1) →
      ∀ p ∈ frames, ∀ h : 0 < p.2.size, p.2[0].start = p.1
  | 0, c, acc, frames, h, hacc => by
    cases h
    exact hacc
  | fuel + 1, c, acc, frames, h, hacc => by
    unfold FrameSource.frames.go at h
    split at h
    · cases h
      exact hacc
    · obtain ⟨⟨entry, c'⟩, -, h⟩ := except_bind_eq_ok.1 h
      rcases entry with _ | (_ | ⟨cieOffset, rest⟩)
      · cases h
        exact hacc
      · exact frames_go_first_start src fuel c' acc h hacc
      · obtain ⟨fde, -, h⟩ := except_bind_eq_ok.1 h
        obtain ⟨rows, hrows, h⟩ := except_bind_eq_ok.1 h
        -- the FDE gathered now starts its table's first row at its first address
        refine frames_go_first_start src fuel c' _ h fun p hp => ?_
        rcases Array.mem_push.1 hp with hp | rfl
        · exact hacc p hp
        · exact fdeRows_first_start hrows

/-- Every FDE of a frame section has its table's first row at its first address. -/
theorem first_start_of_frames {src : FrameSource} {frames : Array (Nat × Array UnwindRow)}
    (h : src.frames = .ok frames) : ∀ p ∈ frames, ∀ hp : 0 < p.2.size, p.2[0].start = p.1 :=
  frames_go_first_start src _ _ _ h nofun

end FrameSource

end RemoteDebugger.Dwarf
