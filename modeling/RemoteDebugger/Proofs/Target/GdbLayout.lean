import RemoteDebugger.Target.Registers

/-!
# The stub's register layout

Reading and writing the stub's register layout are inverse to each other, and a reply is refused
exactly when it is shorter than the general part of the layout.
-/

namespace RemoteDebugger

namespace Registers

/-! ## Numbers and their bytes -/

/-- The bytes of a number are its lowest byte, then the bytes of the rest. -/
theorem leBytes_succ (w v : Nat) : leBytes (w + 1) v = (v % 256).toUInt8 :: leBytes w (v / 256) := by
  simp only [leBytes, List.range_succ_eq_map, List.map_cons, List.map_map]
  congr 2
  · simp
  · funext i
    simp [Function.comp, Nat.pow_succ', Nat.div_div_eq_div_mul]

@[simp] theorem length_leBytes (w v : Nat) : (leBytes w v).length = w := by
  simp [leBytes]

@[simp] theorem leValue_cons (b : UInt8) (bs : List UInt8) :
    leValue (b :: bs) = b.toNat + 256 * leValue bs := rfl

/-- Reading back the bytes of a number gives the number, less what does not fit. -/
theorem leValue_leBytes (w v : Nat) : leValue (leBytes w v) = v % Nat.pow 256 w := by
  rw [Nat.pow_eq]
  induction w generalizing v with
  | zero => simp [leBytes, leValue, Nat.mod_one]
  | succ w ih =>
    rw [leBytes_succ, leValue_cons, ih, Nat.pow_succ, Nat.mul_comm _ 256, Nat.mod_mul]
    simp

/-- Writing out the number that bytes stand for gives the bytes back. -/
theorem leBytes_leValue (bs : List UInt8) : leBytes bs.length (leValue bs) = bs := by
  induction bs with
  | nil => rfl
  | cons b bs ih =>
    have hb := b.toNat_lt
    have hmod : (b.toNat + 256 * leValue bs) % 256 = b.toNat := by omega
    have hdiv : (b.toNat + 256 * leValue bs) / 256 = leValue bs := by omega
    rw [List.length_cons, leBytes_succ, leValue_cons, hmod, hdiv, ih]
    exact congrArg (· :: bs) UInt8.ofNat_toNat

theorem leValue_lt (bs : List UInt8) : leValue bs < Nat.pow 256 bs.length := by
  have h := leValue_leBytes bs.length (leValue bs)
  rw [leBytes_leValue] at h
  rw [h, Nat.pow_eq]
  exact Nat.mod_lt _ (Nat.pow_pos (by decide))

/-! ## Pieces of a byte run -/

@[simp] theorem chunks_nil (n : Nat) : chunks n [] = [] := by
  rw [chunks]
  split <;> simp_all

theorem length_flatten_of_pieces {n : Nat} (L : List (List UInt8)) (hL : ∀ x ∈ L, x.length = n) :
    L.flatten.length = L.length * n := by
  induction L with
  | nil => simp
  | cons x L ih =>
    rw [List.flatten_cons, List.length_append, hL x List.mem_cons_self,
      ih fun y hy => hL y (List.mem_cons_of_mem x hy), List.length_cons, Nat.succ_mul, Nat.add_comm]

/-- A run of `n` bytes in front splits off as the first piece. -/
theorem chunks_append {n : Nat} (hn : 0 < n) {xs : List UInt8} (hx : xs.length = n)
    (ys : List UInt8) : chunks n (xs ++ ys) = xs :: chunks n ys := by
  rw [chunks, if_neg (by omega), if_neg (by simp; omega), List.take_left' hx, List.drop_left' hx]

theorem chunks_flatten_append {n : Nat} (hn : 0 < n) (L : List (List UInt8))
    (hL : ∀ x ∈ L, x.length = n) (ys : List UInt8) : chunks n (L.flatten ++ ys) = L ++ chunks n ys := by
  induction L with
  | nil => rfl
  | cons x L ih =>
    have hx := hL x List.mem_cons_self
    rw [List.flatten_cons, List.append_assoc, chunks_append hn hx,
      ih fun y hy => hL y (List.mem_cons_of_mem x hy), List.cons_append]

/-- The first `m` pieces of `n` bytes of a long enough run. -/
theorem exists_pieces (n : Nat) : ∀ (m : Nat) (bs : List UInt8), m * n ≤ bs.length →
    ∃ L : List (List UInt8), L.length = m ∧ (∀ x ∈ L, x.length = n) ∧
      bs = L.flatten ++ bs.drop (m * n)
  | 0, bs, _ => ⟨[], rfl, by simp, by simp⟩
  | m + 1, bs, h => by
    obtain ⟨L, hlen, hall, heq⟩ := exists_pieces n m (bs.drop n)
      (by simp only [List.length_drop]; rw [Nat.succ_mul] at h; omega)
    refine ⟨bs.take n :: L, by simp [hlen], ?_, ?_⟩
    · intro x hx
      rcases List.mem_cons.1 hx with rfl | hx
      · simp only [List.length_take]; rw [Nat.succ_mul] at h; omega
      · exact hall x hx
    · have hdrop : bs.drop ((m + 1) * n) = (bs.drop n).drop (m * n) := by
        rw [List.drop_drop, Nat.succ_mul, Nat.add_comm]
      rw [List.flatten_cons, List.append_assoc, hdrop, ← heq, List.take_append_drop]

/-! ## Values placed by slot -/

section Placing

variable {α β : Type} {n : Nat}

/-- Placing values by a list of slots leaves a slot the list does not name alone. -/
theorem foldl_set_of_not_mem (f : β → α) (j : Fin n) :
    ∀ (l : List (Fin n)) (ws : List β) (g : Vector α n), j ∉ l →
      ((l.zip ws).foldl (fun (g : Vector α n) (x : Fin n × β) => g.set x.1 (f x.2)) g)[j] = g[j]
  | [], _, _, _ => rfl
  | _ :: _, [], _, _ => rfl
  | i :: l, w :: ws, g, hj => by
    have hne : i ≠ j := fun h => hj (h ▸ List.mem_cons_self)
    rw [List.zip_cons_cons, List.foldl_cons,
      foldl_set_of_not_mem f j l ws _ fun h => hj (List.mem_cons_of_mem i h)]
    exact Vector.getElem_set_ne _ _ (Fin.val_ne_of_ne hne)

/-- Placing values by a list of distinct slots puts each value in its slot. -/
theorem map_foldl_set (f : β → α) :
    ∀ (l : List (Fin n)) (ws : List β) (g : Vector α n), l.Nodup → l.length ≤ ws.length →
      l.map (fun i => ((l.zip ws).foldl
        (fun (g : Vector α n) (x : Fin n × β) => g.set x.1 (f x.2)) g)[i]) = (ws.take l.length).map f
  | [], _, _, _, _ => rfl
  | _ :: _, [], _, _, h => absurd h (by simp)
  | i :: l, w :: ws, g, hnd, hlen => by
    obtain ⟨hi, hnd'⟩ := List.nodup_cons.1 hnd
    have hrest := map_foldl_set f l ws (g.set i (f w)) hnd' (by simpa using hlen)
    simp only [List.zip_cons_cons, List.foldl_cons, List.map_cons, List.length_cons,
      List.take_succ_cons]
    rw [foldl_set_of_not_mem f i l ws _ hi, hrest, Fin.getElem_fin, Vector.getElem_set_self]

/-- Pairing slots with more values than slots pairs them with the first values only. -/
theorem zip_append_of_length {γ : Type} {l : List γ} {S : List β} (h : S.length = l.length)
    (T : List β) : l.zip (S ++ T) = l.zip S := by
  simpa using @List.zip_append _ _ l [] S T h.symm

/-- Values placed by distinct slots and read back along the same slots are the values placed,
as far as `enc` undoes `f`. -/
theorem map_foldl_set_undo (f : β → α) (enc : α → β) (l : List (Fin n)) (ws : List β)
    (g : Vector α n) (hnd : l.Nodup) (hlen : ws.length ≤ l.length) (hle : l.length ≤ ws.length)
    (hundo : ∀ w ∈ ws, enc (f w) = w) :
    l.map (fun i => enc (((l.zip ws).foldl
      (fun (g : Vector α n) (x : Fin n × β) => g.set x.1 (f x.2)) g).get i)) = ws := by
  have hplaced := map_foldl_set f l ws g hnd hle
  rw [List.take_of_length_le hlen] at hplaced
  calc l.map (fun i => enc (((l.zip ws).foldl
          (fun (g : Vector α n) (x : Fin n × β) => g.set x.1 (f x.2)) g).get i))
      = (l.map fun i => ((l.zip ws).foldl
          (fun (g : Vector α n) (x : Fin n × β) => g.set x.1 (f x.2)) g)[i]).map enc := by
        rw [List.map_map]
        rfl
    _ = (ws.map f).map enc := by rw [hplaced]
    _ = ws := by
        rw [List.map_map]
        exact (List.map_congr_left fun w hw => hundo w hw).trans (List.map_id' ws)

/-- Two vectors that agree on every slot a list names, when it names every slot, are equal. -/
theorem vector_eq_of_map {l : List (Fin n)} (hall : ∀ i, i ∈ l) {v w : Vector α n}
    (h : l.map (fun i => v[i]) = l.map (fun i => w[i])) : v = w := by
  apply Vector.ext
  intro i hi
  exact (List.map_inj_left.1 h) ⟨i, hi⟩ (hall _)

end Placing

/-! ## The layout -/

theorem gdbOrder_nodup : gdbOrder.Nodup := by decide

theorem gdbSegmentOrder_nodup : gdbSegmentOrder.Nodup := by decide

/-- The stub's order names every general register. -/
theorem mem_gdbOrder : ∀ i, i ∈ gdbOrder := by decide

/-- The stub's order names every segment register. -/
theorem mem_gdbSegmentOrder : ∀ i, i ∈ gdbSegmentOrder := by decide

@[simp] theorem length_gdbOrder : gdbOrder.length = 17 := rfl

@[simp] theorem length_gdbSegmentOrder : gdbSegmentOrder.length = 6 := rfl

/-- A word written out in eight bytes reads back as itself. -/
theorem toUInt64_leValue_leBytes (x : UInt64) : (leValue (leBytes 8 x.toNat)).toUInt64 = x := by
  rw [leValue_leBytes, Nat.mod_eq_of_lt (by simpa using x.toNat_lt)]
  exact UInt64.ofNat_toNat

/-- A 32-bit word written out in four bytes reads back as itself. -/
theorem toUInt32_leValue_leBytes (x : UInt32) : (leValue (leBytes 4 x.toNat)).toUInt32 = x := by
  rw [leValue_leBytes, Nat.mod_eq_of_lt (by simpa using x.toNat_lt)]
  exact UInt32.ofNat_toNat

/-- Eight bytes read as a word are written out as themselves. -/
theorem leBytes_toUInt64_leValue {w : List UInt8} (h : w.length = 8) :
    leBytes 8 (leValue w).toUInt64.toNat = w := by
  have hlt := leValue_lt w
  rw [h] at hlt
  rw [Nat.toUInt64, UInt64.toNat_ofNat_of_lt' (by simpa using hlt), ← h, leBytes_leValue]

/-- Four bytes read as a 32-bit word are written out as themselves. -/
theorem leBytes_toUInt32_leValue {w : List UInt8} (h : w.length = 4) :
    leBytes 4 (leValue w).toUInt32.toNat = w := by
  have hlt := leValue_lt w
  rw [h] at hlt
  rw [Nat.toUInt32, UInt32.toNat_ofNat_of_lt' (by simpa using hlt), ← h, leBytes_leValue]

/-- The general registers in the stub's order, a word each. -/
theorem toGdbBytes_eq (r : Registers) :
    r.toGdbBytes = (gdbOrder.map fun i => leBytes 8 (r.general.get i).toNat).flatten ++
      ((leBytes 4 r.eflags.toNat :: gdbSegmentOrder.map fun i => leBytes 4 (r.segments.get i).toNat).flatten) := by
  simp [toGdbBytes, List.flatMap_def]
  rfl

theorem ofGdbBytes_toGdbBytes (r : Registers) : ofGdbBytes r.toGdbBytes = .ok r := by
  have hwords : ∀ x ∈ gdbOrder.map (fun i => leBytes 8 (r.general.get i).toNat), x.length = 8 := by
    simp
  have hsmall : ∀ x ∈ leBytes 4 r.eflags.toNat :: gdbSegmentOrder.map (fun i => leBytes 4 (r.segments.get i).toNat),
      x.length = 4 := by
    simp
  have hlen : r.toGdbBytes.length = gdbBytes := by
    simp [toGdbBytes_eq, gdbBytes, gdbMinBytes, Function.comp_def, List.map_const']
  have hmin : ¬ r.toGdbBytes.length < gdbMinBytes := by rw [hlen]; decide
  have htake : (chunks 8 r.toGdbBytes).take 17 = gdbOrder.map (fun i => leBytes 8 (r.general.get i).toNat) := by
    rw [toGdbBytes_eq, chunks_flatten_append (by decide) _ hwords, List.take_left' (by simp)]
  have hdrop : r.toGdbBytes.drop (17 * 8) =
      (leBytes 4 r.eflags.toNat :: gdbSegmentOrder.map (fun i => leBytes 4 (r.segments.get i).toNat)).flatten := by
    rw [toGdbBytes_eq, List.drop_left']
    simp [Function.comp_def, List.map_const']
  have hsmall4 := chunks_flatten_append (by decide) _ hsmall []
  rw [chunks_nil, List.append_nil] at hsmall4
  -- each register is placed back in its slot by the stub's order, which names each slot once
  have hgeneral : (gdbOrder.zip (gdbOrder.map fun i => leBytes 8 (r.general.get i).toNat)).foldl
      (fun (g : Vector UInt64 17) x => g.set x.1 (leValue x.2).toUInt64) (Vector.replicate 17 0) =
      r.general := by
    apply vector_eq_of_map mem_gdbOrder
    rw [map_foldl_set (fun w => (leValue w).toUInt64) _ _ _ gdbOrder_nodup (by simp),
      List.take_of_length_le (by simp), List.map_map]
    exact List.map_congr_left fun i _ => toUInt64_leValue_leBytes _
  have hsegments : (gdbSegmentOrder.zip (gdbSegmentOrder.map fun i => leBytes 4 (r.segments.get i).toNat)).foldl
      (fun (g : Vector UInt32 6) x => g.set x.1 (leValue x.2).toUInt32) (Vector.replicate 6 0) =
      r.segments := by
    apply vector_eq_of_map mem_gdbSegmentOrder
    rw [map_foldl_set (fun w => (leValue w).toUInt32) _ _ _ gdbSegmentOrder_nodup (by simp),
      List.take_of_length_le (by simp), List.map_map]
    exact List.map_congr_left fun i _ => toUInt32_leValue_leBytes _
  simp only [ofGdbBytes, if_neg hmin, htake, hdrop, hsmall4, List.append_nil, List.head?_cons,
    Option.map_some, Option.getD_some, List.drop_one, List.tail_cons, hgeneral, hsegments,
    toUInt32_leValue_leBytes]

/-- Reading a register reply at least as long as the full layout and writing the registers back
gives the reply's first `gdbBytes` bytes. -/
theorem toGdbBytes_ofGdbBytes {b : List UInt8} (hb : gdbBytes ≤ b.length) :
    ∃ r, ofGdbBytes b = .ok r ∧ r.toGdbBytes = b.take gdbBytes := by
  simp only [gdbBytes, gdbMinBytes] at hb
  -- seventeen words, then seven four-byte values: `eflags` and the six segments
  obtain ⟨L, hL, hL8, hb1⟩ := exists_pieces 8 17 b (by omega)
  obtain ⟨M, hM, hM4, hb2⟩ := exists_pieces 4 7 (b.drop (17 * 8)) (by simp only [List.length_drop]; omega)
  obtain ⟨e, S, rfl⟩ : ∃ e S, M = e :: S := match M, hM with | e :: S, _ => ⟨e, S, rfl⟩
  have he : e.length = 4 := hM4 e List.mem_cons_self
  have hS : S.length = 6 := by simpa using hM
  have hS4 : ∀ x ∈ S, x.length = 4 := fun x hx => hM4 x (List.mem_cons_of_mem e hx)
  have hmin : ¬ b.length < gdbMinBytes := by simp only [gdbMinBytes]; omega
  have hwords : (chunks 8 b).take 17 = L := by
    rw [hb1, chunks_flatten_append (by decide) L hL8, List.take_left' hL]
  generalize (b.drop (17 * 8)).drop (7 * 4) = rest at hb2
  have hsmall : chunks 4 (b.drop (17 * 8)) = e :: (S ++ chunks 4 rest) := by
    rw [hb2, chunks_flatten_append (by decide) _ hM4, List.cons_append]
  simp only [ofGdbBytes, if_neg hmin, hwords, hsmall, List.head?_cons, Option.map_some,
    Option.getD_some, List.drop_one, List.tail_cons]
  refine ⟨_, rfl, ?_⟩
  rw [toGdbBytes_eq]
  simp only
  rw [map_foldl_set_undo (fun w => (leValue w).toUInt64) (fun x => leBytes 8 x.toNat) _ _ _
      gdbOrder_nodup (by simp [hL]) (by simp [hL]) fun w hw => leBytes_toUInt64_leValue (hL8 w hw),
    leBytes_toUInt32_leValue he, zip_append_of_length (by simp [hS]),
    map_foldl_set_undo (fun w => (leValue w).toUInt32) (fun x => leBytes 4 x.toNat) _ _ _
      gdbSegmentOrder_nodup (by simp [hS]) (by simp [hS]) fun w hw => leBytes_toUInt32_leValue (hS4 w hw)]
  -- the bytes read are the first 164 of the reply
  have hLlen := length_flatten_of_pieces L hL8
  have hMlen := length_flatten_of_pieces (e :: S) hM4
  rw [hL] at hLlen
  rw [hM] at hMlen
  have hfull : gdbBytes = 17 * 8 + 4 + 6 * 4 := rfl
  rw [hb1, hb2, hfull, List.take_append, List.take_append, List.take_of_length_le (by omega),
    List.take_of_length_le (by omega), hLlen, hMlen,
    show 17 * 8 + 4 + 6 * 4 - 17 * 8 - 7 * 4 = 0 from rfl, List.take_zero, List.append_nil]

/-- A reply is refused exactly when it is shorter than the general part of the layout, and
then as a failed register access. -/
theorem ofGdbBytes_error_iff (b : List UInt8) :
    (∃ d, ofGdbBytes b = .error (.registerAccess d)) ↔ b.length < gdbMinBytes := by
  unfold ofGdbBytes
  split
  · next h => exact ⟨fun _ => h, fun _ => ⟨_, rfl⟩⟩
  · next h => exact ⟨fun ⟨_, he⟩ => (nomatch he), fun h' => absurd h' h⟩

/-- A reply as long as the general part of the layout is always read. -/
theorem ofGdbBytes_ok {b : List UInt8} (h : gdbMinBytes ≤ b.length) : ∃ r, ofGdbBytes b = .ok r := by
  unfold ofGdbBytes
  rw [if_neg (by omega)]
  exact ⟨_, rfl⟩

/-- Reading and writing the stub's register layout are inverse: a register file reads back from
its bytes; a reply of at least `gdbBytes` bytes, read and written again, is its first
`gdbBytes` bytes; and a reply is refused, as a failed register access, exactly when it is
shorter than `gdbMinBytes`, and read otherwise. -/
theorem gdbLayout_inverse :
    (∀ r : Registers, ofGdbBytes r.toGdbBytes = .ok r) ∧
    (∀ b : List UInt8, gdbBytes ≤ b.length →
      ∃ r, ofGdbBytes b = .ok r ∧ r.toGdbBytes = b.take gdbBytes) ∧
    (∀ b : List UInt8, (∃ d, ofGdbBytes b = .error (.registerAccess d)) ↔ b.length < gdbMinBytes) ∧
    (∀ b : List UInt8, gdbMinBytes ≤ b.length → ∃ r, ofGdbBytes b = .ok r) :=
  ⟨ofGdbBytes_toGdbBytes, fun _ => toGdbBytes_ofGdbBytes, ⟨ofGdbBytes_error_iff, fun _ => ofGdbBytes_ok⟩⟩

/-- A reply of the full layout and four bytes more, every byte `0x5a`, is read, and written back
as its first `gdbBytes` bytes. -/
theorem gdbLayout_inverse_longReply :
    gdbBytes ≤ (List.replicate (gdbBytes + 4) (0x5a : UInt8)).length ∧
    (∃ r, ofGdbBytes (List.replicate (gdbBytes + 4) 0x5a) = .ok r ∧
      r.toGdbBytes = (List.replicate (gdbBytes + 4) (0x5a : UInt8)).take gdbBytes) ∧
    ∃ r, ofGdbBytes (List.replicate (gdbBytes + 4) 0x5a) = .ok r :=
  ⟨by simp, gdbLayout_inverse.2.1 _ (by simp), gdbLayout_inverse.2.2.2 _ (by simp [gdbBytes]; omega)⟩

end Registers

end RemoteDebugger
