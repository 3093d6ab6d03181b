import Mathlib
import RemoteDebugger.Dwarf.Lists

/-!
# What reading debug information guarantees

No reader moves the cursor back (`Forward`), an entry sits at the offset it is read from, and a
unit's entries start at or after the unit (`unitHeaders_offset_le`).
-/

namespace RemoteDebugger.Dwarf

/-- A reader that never moves the cursor back. -/
def Forward {α : Type} (r : Read α) : Prop := ∀ c a c', r c = .ok (a, c') → c.pos ≤ c'.pos

/-- A reader that moves the cursor at least one byte. -/
def Advances {α : Type} (r : Read α) : Prop := ∀ c a c', r c = .ok (a, c') → c.pos < c'.pos

section Forward

variable {α β : Type}

theorem forward_pure (a : α) : Forward (pure a : Read α) := fun c _ c' h => by
  cases h
  exact Nat.le_refl _

theorem forward_fault (f : Fault) : Forward (fault f : Read α) := fun _ _ _ h => by cases h

theorem forward_get : Forward (get : Read Cursor) := fun c _ c' h => by
  cases h
  exact Nat.le_refl _

theorem Forward.bind {r : Read α} {f : α → Read β} (hr : Forward r) (hf : ∀ a, Forward (f a)) :
    Forward (r >>= f) := fun c b c' h => by
  change (r c).bind (fun p => f p.1 p.2) = .ok (b, c') at h
  cases hc : r c with
  | error e => rw [hc] at h; cases h
  | ok p =>
    rw [hc] at h
    exact Nat.le_trans (hr c p.1 p.2 hc) (hf p.1 p.2 b c' h)

theorem Advances.bind {r : Read α} {f : α → Read β} (hr : Advances r) (hf : ∀ a, Forward (f a)) :
    Advances (r >>= f) := fun c b c' h => by
  change (r c).bind (fun p => f p.1 p.2) = .ok (b, c') at h
  cases hc : r c with
  | error e => rw [hc] at h; cases h
  | ok p =>
    rw [hc] at h
    exact Nat.lt_of_lt_of_le (hr c p.1 p.2 hc) (hf p.1 p.2 b c' h)

theorem Forward.map {r : Read α} (hr : Forward r) (g : α → β) : Forward (g <$> r) := by
  rw [← bind_pure_comp]
  exact hr.bind fun a => forward_pure (g a)

theorem Advances.forward {r : Read α} (h : Advances r) : Forward r := fun c a c' hr =>
  Nat.le_of_lt (h c a c' hr)

theorem forward_ite {p : Prop} [Decidable p] {r₁ r₂ : Read α} (h₁ : Forward r₁) (h₂ : Forward r₂) :
    Forward (if p then r₁ else r₂) := by
  split
  · exact h₁
  · exact h₂

theorem forward_split (n : Nat) : Forward (split n) := fun c _ c' h => by
  unfold split at h
  split at h
  · cases h
    exact Nat.le_add_right _ _
  · cases h

theorem forward_uint (n : Nat) : Forward (uint n) := fun c _ c' h => by
  unfold uint at h
  split at h
  · cases h
    exact Nat.le_add_right _ _
  · cases h

theorem advances_u8 : Advances u8 := fun c _ c' h => by
  unfold u8 uint at h
  split at h
  · cases h
    exact Nat.lt_succ_self _
  · cases h

theorem forward_cstring : Forward cstring := fun c _ c' h => by
  unfold cstring at h
  -- the zero byte is found at or after the cursor
  have hfind : ∀ fuel i z, cstring.find c i fuel = some z → i ≤ z := by
    intro fuel
    induction fuel with
    | zero => intro i z hz; cases hz
    | succ fuel ih =>
      intro i z hz
      unfold cstring.find at hz
      split at hz
      · split at hz
        · cases hz
          exact Nat.le_refl _
        · exact Nat.le_of_succ_le (ih _ _ hz)
      · cases hz
  split at h
  · rename_i z hz
    cases h
    exact Nat.le_succ_of_le (hfind _ _ _ hz)
  · cases h

theorem advances_ulebGroups (shift acc fuel : Nat) : Advances (ulebGroups shift acc fuel) := by
  induction fuel generalizing shift acc with
  | zero => exact fun _ _ _ h => by cases h
  | succ fuel ih =>
    unfold ulebGroups
    refine advances_u8.bind fun b => forward_ite (forward_fault _) ?_
    exact forward_ite (forward_pure _) (ih _ _).forward

theorem advances_uleb128 : Advances uleb128 := advances_ulebGroups 0 0 10

theorem advances_slebGroups (shift acc fuel : Nat) : Advances (slebGroups shift acc fuel) := by
  induction fuel generalizing shift acc with
  | zero => exact fun _ _ _ h => by cases h
  | succ fuel ih =>
    unfold slebGroups
    refine advances_u8.bind fun b => forward_ite (forward_fault _) ?_
    exact forward_ite (forward_pure _) (ih _ _).forward

theorem advances_sleb128 : Advances sleb128 := advances_slebGroups 0 0 10

theorem forward_uleb16 : Forward uleb16 := by
  unfold uleb16
  refine advances_u8.forward.bind fun b0 => forward_ite (forward_pure _) ?_
  refine advances_u8.forward.bind fun b1 => forward_ite (forward_pure _) ?_
  exact advances_u8.forward.bind fun b2 => forward_ite (forward_fault _) (forward_pure _)

theorem forward_address (size : Nat) : Forward (address size) := by
  unfold address
  exact forward_ite (forward_uint _) (forward_fault _)

theorem forward_offset (is64 : Bool) : Forward (offset is64) := by
  unfold offset
  split
  · exact forward_uint _
  · exact forward_uint _

theorem forward_u8 : Forward u8 := forward_uint 1
theorem forward_u16 : Forward u16 := forward_uint 2
theorem forward_uleb128 : Forward uleb128 := advances_uleb128.forward
theorem forward_sleb128 : Forward sleb128 := advances_sleb128.forward
theorem forward_u32 : Forward u32 := forward_uint 4
theorem forward_u64 : Forward u64 := forward_uint 8

/-- A counted field: a length, then that many bytes. -/
theorem forward_counted {r : Read Nat} (hr : Forward r) (g : Cursor → β) :
    Forward (r >>= fun n => split n >>= fun c => pure (g c)) :=
  hr.bind fun n => (forward_split n).bind fun c => forward_pure (g c)

theorem forward_readForm (enc : Encoding) (name : Nat) (implicit : Option Int) :
    ∀ fuel form, Forward (readForm enc name implicit fuel form) := by
  intro fuel
  induction fuel with
  | zero => exact fun _ => forward_fault _
  | succ fuel ih =>
    intro form
    unfold readForm
    split
    case h_1 => exact forward_uleb16.bind ih
    case h_2 => exact (forward_address _).map _
    case h_3 => exact forward_counted forward_u8 _
    case h_4 => exact forward_counted forward_u16 _
    case h_5 => exact forward_counted forward_u32 _
    case h_6 | h_14 => exact forward_counted forward_uleb128 _
    case h_9 => exact forward_ite (forward_u32.map _) (forward_u32.map _)
    case h_10 => exact forward_ite (forward_u64.map _) (forward_u64.map _)
    case h_11 => exact (forward_split 16).bind fun _ => forward_pure _
    case h_13 => exact forward_sleb128.map _
    case h_15 => exact forward_u8.bind fun _ => forward_pure _
    case h_16 => exact forward_pure _
    case h_17 | h_27 | h_29 | h_30 | h_31 | h_32 => exact (forward_offset _).map _
    case h_23 => exact (forward_ite (forward_uint _) (forward_offset _)).map _
    case h_28 => exact forward_cstring.map _
    case h_33 =>
      split
      · exact forward_pure _
      · exact forward_fault _
    case h_48 => exact forward_fault _
    -- the rest read one fixed-width integer or one LEB128 number
    all_goals first
      | exact (forward_uint _).map _
      | exact forward_uleb128.map _

theorem forward_readValue (enc : Encoding) (name form : Nat) (implicit : Option Int) :
    Forward (readValue enc name form implicit) := by
  unfold readValue
  exact forward_get.bind fun c => forward_readForm enc name implicit _ form

theorem forward_readAttribute (enc : Encoding) (spec : AttrSpec) : Forward (readAttribute enc spec) := by
  unfold readAttribute
  exact (forward_readValue _ _ _ _).bind fun v => forward_pure _

theorem forward_addressSize : Forward addressSize := by
  unfold addressSize
  exact forward_u8.bind fun s => forward_ite (forward_pure _) (forward_fault _)

theorem forward_initialLength : Forward initialLength := by
  unfold initialLength
  refine forward_u32.bind fun v => forward_ite (forward_pure _) (forward_ite ?_ (forward_fault _))
  exact forward_u64.bind fun n => forward_pure _

end Forward

/-! ## Running a reader step by step -/

section Steps

variable {α β : Type} {c c' : Cursor}

theorem read_bind_eq_ok {r : Read α} {f : α → Read β} {b : β} :
    (r >>= f) c = .ok (b, c') ↔ ∃ a c₁, r c = .ok (a, c₁) ∧ f a c₁ = .ok (b, c') := by
  change (r c).bind (fun p => f p.1 p.2) = _ ↔ _
  cases r c with
  | error e => simp [Except.bind]
  | ok p =>
    constructor
    · intro h
      exact ⟨p.1, p.2, rfl, h⟩
    · rintro ⟨a, c₁, hp, h⟩
      cases hp
      exact h

theorem read_get_eq_ok {a : Cursor} : (get : Read Cursor) c = .ok (a, c') ↔ c = a ∧ c = c' := by
  change Except.ok (c, c) = _ ↔ _
  simp only [Except.ok.injEq, Prod.mk.injEq]

theorem read_pure_eq_ok {a b : α} : (pure a : Read α) c = .ok (b, c') ↔ b = a ∧ c' = c := by
  change Except.ok (a, c) = _ ↔ _
  simp only [Except.ok.injEq, Prod.mk.injEq]
  exact ⟨fun ⟨h₁, h₂⟩ => ⟨h₁.symm, h₂.symm⟩, fun ⟨h₁, h₂⟩ => ⟨h₁.symm, h₂.symm⟩⟩

theorem read_fault_ne_ok {f : Fault} {b : α} : (fault f : Read α) c ≠ .ok (b, c') := nofun

/-- Every result of a reader satisfies `P` together with the cursor it leaves. -/
def Yields (r : Read α) (P : α → Cursor → Prop) : Prop := ∀ c a c', r c = .ok (a, c') → P a c'

theorem Yields.bind {P : β → Cursor → Prop} {r : Read α} {f : α → Read β}
    (hf : ∀ a, Yields (f a) P) : Yields (r >>= f) P := fun c b c' h => by
  obtain ⟨a, c₁, _, h⟩ := read_bind_eq_ok.1 h
  exact hf a c₁ b c' h

theorem yields_fault {P : α → Cursor → Prop} (f : Fault) : Yields (fault f) P :=
  fun _ _ _ h => absurd h read_fault_ne_ok

/-- A reader that ends by returning something made of the cursor it stops at. -/
theorem yields_get_pure {P : α → Cursor → Prop} {g : Cursor → α} (h : ∀ c, P (g c) c) :
    Yields (get >>= fun c => pure (g c)) P := fun c a c' hr => by
  obtain ⟨c₀, c₁, hget, hr⟩ := read_bind_eq_ok.1 hr
  obtain ⟨rfl, rfl⟩ := read_get_eq_ok.1 hget
  obtain ⟨rfl, rfl⟩ := read_pure_eq_ok.1 hr
  exact h _

end Steps

/-! ## Entries and unit headers -/

/-- An entry read from a cursor sits at the cursor's unit offset, and its attributes start past
its abbreviation code, where the cursor is left. -/
theorem readDie_some {h : UnitHeader} {abbrevs : Abbreviations} {c c' : Cursor} {d : Die}
    (hr : readDie h abbrevs c = .ok (some d, c')) :
    d.offset = c.pos - h.offset ∧ c.pos < d.attrs ∧ d.attrs = c'.pos := by
  unfold readDie at hr
  rw [read_bind_eq_ok] at hr
  obtain ⟨c₀, c₁, hget, hr⟩ := hr
  obtain ⟨rfl, rfl⟩ := read_get_eq_ok.1 hget
  rw [read_bind_eq_ok] at hr
  obtain ⟨code, c₂, hcode, hr⟩ := hr
  have hadv := advances_uleb128 _ _ _ hcode
  split at hr
  · exact absurd (read_pure_eq_ok.1 hr).1 nofun
  cases ha : abbrevs[code]? with
  | none =>
    rw [ha] at hr
    exact absurd hr read_fault_ne_ok
  | some a =>
    rw [ha] at hr
    dsimp only at hr
    rw [read_bind_eq_ok] at hr
    obtain ⟨c₃, c₄, hget, hr⟩ := hr
    obtain ⟨rfl, rfl⟩ := read_get_eq_ok.1 hget
    obtain ⟨hd, rfl⟩ := read_pure_eq_ok.1 hr
    cases hd
    exact ⟨rfl, hadv, rfl⟩

theorem forward_readDie (h : UnitHeader) (abbrevs : Abbreviations) : Forward (readDie h abbrevs) := by
  unfold readDie
  refine forward_get.bind fun c₀ => forward_uleb128.bind fun code => forward_ite (forward_pure _) ?_
  split
  · exact forward_get.bind fun c₁ => forward_pure _
  · exact forward_fault _

/-- The fields of a unit header after its initial length: the header starts where the unit does,
and its entries where the fields end. -/
theorem unitHeader_fields_ok {is64 : Bool} {start : Nat} {c c' : Cursor} {h : UnitHeader}
    (hr : unitHeader.fields is64 start c = .ok (h, c')) :
    h.offset = start ∧ c.pos ≤ h.entries := by
  -- each field is one of the readers above, run in sequence
  have hforward : Forward (unitHeader.fields is64 start) := by
    unfold unitHeader.fields
    dsimp only
    repeat' first
      | exact forward_pure _ | exact forward_fault _ | exact forward_get
      | exact forward_u8 | exact forward_u16 | exact forward_u64 | exact forward_addressSize
      | exact forward_offset _ | exact (forward_u64).map _ | exact (forward_offset _).map _
      | refine Forward.bind ?_ fun _ => ?_ | split
  -- the header is made from the cursor its last step stops at
  have hyields : Yields (unitHeader.fields is64 start) fun h c' => h.offset = start ∧ h.entries = c'.pos := by
    unfold unitHeader.fields
    dsimp only
    repeat' first
      | exact yields_fault _ | exact yields_get_pure fun _ => ⟨rfl, rfl⟩
      | refine Yields.bind fun _ => ?_ | split
  obtain ⟨hoffset, hentries⟩ := hyields c h c' hr
  exact ⟨hoffset, hentries ▸ hforward c h c' hr⟩

/-- A unit's entries start at or after the unit. -/
theorem unitHeader_offset_le {c c' : Cursor} {h : UnitHeader} (hr : unitHeader c = .ok (h, c')) :
    h.offset ≤ h.entries := by
  unfold unitHeader at hr
  rw [read_bind_eq_ok] at hr
  obtain ⟨c₀, c₁, hget, hr⟩ := hr
  obtain ⟨rfl, rfl⟩ := read_get_eq_ok.1 hget
  rw [read_bind_eq_ok] at hr
  obtain ⟨⟨length, is64⟩, c₂, hlength, hr⟩ := hr
  rw [read_bind_eq_ok] at hr
  obtain ⟨rest, c₃, hsplit, hr⟩ := hr
  have hrest : rest.pos = c₂.pos := by
    unfold split at hsplit
    split at hsplit
    · cases hsplit
      rfl
    · cases hsplit
  cases hfields : (unitHeader.fields is64 c.pos).run rest with
  | error e =>
    rw [hfields] at hr
    exact absurd hr read_fault_ne_ok
  | ok p =>
    rw [hfields] at hr
    dsimp only at hr
    obtain ⟨rfl, rfl⟩ := read_pure_eq_ok.1 hr
    obtain ⟨hoffset, hentries⟩ := unitHeader_fields_ok hfields
    have := forward_initialLength _ _ _ hlength
    omega

/-- Every header `unitHeaders` returns has its entries at or after its start. -/
theorem unitHeaders_offset_le (info : ByteArray) (big : Bool) :
    ∀ h ∈ (unitHeaders info big).1, h.offset ≤ h.entries := by
  have hgo : ∀ fuel c (acc : Array UnitHeader), (∀ h ∈ acc, h.offset ≤ h.entries) →
      ∀ h ∈ (unitHeaders.go fuel c acc).1, h.offset ≤ h.entries := by
    intro fuel
    induction fuel with
    | zero => exact fun _ _ hacc => hacc
    | succ fuel ih =>
      intro c acc hacc
      unfold unitHeaders.go
      split
      · exact hacc
      · split
        · rename_i h c' hh
          refine ih _ _ fun x hx => ?_
          rcases Array.mem_push.1 hx with hx | rfl
          · exact hacc x hx
          · exact unitHeader_offset_le hh
        · exact hacc
  exact hgo _ _ _ fun h hh => absurd hh (Array.not_mem_empty h)

/-! ## Opening a unit -/

section Opening

variable {ε α β γ : Type}

theorem except_bind_eq_ok {m : Except ε α} {f : α → Except ε β} {b : β} :
    m >>= f = .ok b ↔ ∃ a, m = .ok a ∧ f a = .ok b := by
  cases m with
  | error e => simp [bind, Except.bind]
  | ok a => simp [bind, Except.bind]

/-- A loop whose every step keeps an invariant keeps it. -/
theorem except_forIn_invariant (I : β → Prop) {f : γ → β → Except ε (ForInStep β)}
    (hf : ∀ x s r, I s → f x s = .ok r → I r.value) :
    ∀ (l : List γ) (s s' : β), I s → forIn l s f = .ok s' → I s' := by
  intro l
  induction l with
  | nil =>
    intro s s' hs h
    cases h
    exact hs
  | cons x l ih =>
    intro s s' hs h
    rw [List.forIn_cons, except_bind_eq_ok] at h
    obtain ⟨r, hr, h⟩ := h
    have hr := hf x s r hs hr
    cases r with
    | done b =>
      cases h
      exact hr
    | yield b => exact ih b s' hr h

/-- Opening a unit keeps its header. -/
theorem CompUnit.header_of_load {s : Sections} {h : UnitHeader} {u : CompUnit}
    (hu : CompUnit.load s h = .ok u) : u.header = h := by
  unfold CompUnit.load at hu
  rw [except_bind_eq_ok] at hu
  obtain ⟨abbrevs, -, hu⟩ := hu
  rw [except_bind_eq_ok] at hu
  obtain ⟨⟨root, c⟩, -, hu⟩ := hu
  dsimp only at hu
  rw [except_bind_eq_ok] at hu
  obtain ⟨st, hloop, hu⟩ := hu
  -- the root's attributes set bases and remember values, never the header
  have hst : st.1.header = h := by
    refine except_forIn_invariant (fun st : CompUnit × _ => st.1.header = h) ?_ _ _ _ rfl hloop
    intro spec st r hst hr
    rw [except_bind_eq_ok] at hr
    obtain ⟨x, -, hr⟩ := hr
    split at hr
    all_goals
      cases hr
      exact hst
  clear hloop
  -- after the loop only the names, the line table and the low address are filled in
  repeat' first
    | (rw [except_bind_eq_ok] at hu; obtain ⟨_, -, hu⟩ := hu)
    | split at hu
  all_goals
    cases hu
    exact hst

end Opening

end RemoteDebugger.Dwarf
