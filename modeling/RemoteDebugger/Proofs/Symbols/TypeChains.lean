import Mathlib.Tactic.SplitIfs
import RemoteDebugger.Proofs.Symbols.Building
import RemoteDebugger.Symbols.Resolver

/-!
# Flattening type chains

`symbolType` reads a chain of type entries into a name read right to left, with the kind and
size of its outermost sized link, for every chain whose array arithmetic fits in 64 bits
(`symbolType_of_resolves`).
-/

namespace RemoteDebugger

open Resolver

/-! ## Chains by tag -/

/-- Tags whose entries end a chain: the entry is the whole type and its `DW_AT_type` is not
followed. -/
def endsChainTag (tag : Nat) : Bool :=
  [Dwarf.tagBaseType, Dwarf.tagStructureType, Dwarf.tagClassType, Dwarf.tagUnionType,
    Dwarf.tagEnumerationType].contains tag

/-- The tags a type chain may hold. -/
def isTypeTag (tag : Nat) : Bool :=
  [Dwarf.tagConstType, Dwarf.tagVolatileType, Dwarf.tagRestrictType, Dwarf.tagPointerType,
    Dwarf.tagReferenceType, Dwarf.tagRvalueReferenceType, Dwarf.tagBaseType,
    Dwarf.tagStructureType, Dwarf.tagClassType, Dwarf.tagUnionType, Dwarf.tagEnumerationType,
    Dwarf.tagTypedef, Dwarf.tagArrayType, Dwarf.tagSubroutineType].contains tag

namespace Entry

/-- The link after an entry: its `DW_AT_type`, unless the entry ends the chain. -/
def nextLink (e : Entry) : Option EntryKey := if endsChainTag e.tag then none else e.typeRef

/-- The kind a link gives the type: pointers and references point, base types go by their
encoding, records and arrays are structured, enumerations are integers. -/
def linkKind (e : Entry) : Option TypeKind :=
  if e.tag = Dwarf.tagPointerType ∨ e.tag = Dwarf.tagReferenceType ∨
      e.tag = Dwarf.tagRvalueReferenceType then some .pointer
  else if e.tag = Dwarf.tagBaseType then some (baseKind e)
  else if e.tag = Dwarf.tagStructureType ∨ e.tag = Dwarf.tagClassType ∨
      e.tag = Dwarf.tagUnionType ∨ e.tag = Dwarf.tagArrayType then some .struct
  else if e.tag = Dwarf.tagEnumerationType then some .int
  else none

end Entry

namespace SymbolDatabase

/-- The chain from a key: present entries, each named by the previous one's next link, the last
one with no next link. -/
inductive TypeChain (db : SymbolDatabase) : EntryKey → List Entry → Prop
  | last {k : EntryKey} {e : Entry} :
      db.entry k = some e → e.nextLink = none → TypeChain db k [e]
  | link {k k' : EntryKey} {e : Entry} {es : List Entry} :
      db.entry k = some e → e.nextLink = some k' → TypeChain db k' es → TypeChain db k (e :: es)

/-- An array's element count: `DW_AT_count` of its first subrange, else that subrange's upper
bound plus one. -/
def arrayCount (db : SymbolDatabase) (array : Entry) : Option Nat :=
  match (db.childrenOf array.key).find? (·.tag = Dwarf.tagSubrangeType) with
  | none => none
  | some sub =>
    match (sub.attr Dwarf.atCount).bind (·.asUnsigned) with
    | some n => some n.toNat
    | none => ((sub.attr Dwarf.atUpperBound).bind (·.asUnsigned)).map (·.toNat + 1)

/-- The keys whose chains a link reads on their own: an array's element type and a function
type's parameter types. -/
def nestedKeys (db : SymbolDatabase) (e : Entry) : List EntryKey :=
  if e.tag = Dwarf.tagArrayType then e.typeRef.toList
  else if e.tag = Dwarf.tagSubroutineType then
    (db.childrenOf e.key).filterMap fun child =>
      if child.tag = Dwarf.tagFormalParameter then child.typeRef else none
  else []

variable (db : SymbolDatabase) (nested : EntryKey → SymbolType)

/-- The word a child of a function type adds to its parameter list, `nested` giving the types
of nested keys: a formal parameter's type name (`unknown` without a type), `...` for unspecified
parameters, and nothing for other children. -/
def parameterWord (child : Entry) : Option String :=
  if child.tag = Dwarf.tagFormalParameter then
    some ((child.typeRef.map fun k => (nested k).name).getD SymbolType.unknown.name)
  else if child.tag = Dwarf.tagUnspecifiedParameters then some "..."
  else none

/-- The words of a function type's parameter list. -/
def parameterNames (e : Entry) : List String := (db.childrenOf e.key).filterMap (parameterWord nested)

/-- The word a link adds to the type's name. -/
def linkToken (e : Entry) : String :=
  if e.tag = Dwarf.tagConstType then "const"
  else if e.tag = Dwarf.tagVolatileType then "volatile"
  else if e.tag = Dwarf.tagRestrictType then "restrict"
  else if e.tag = Dwarf.tagPointerType then "*"
  else if e.tag = Dwarf.tagReferenceType ∨ e.tag = Dwarf.tagRvalueReferenceType then "&"
  else if e.tag = Dwarf.tagBaseType then e.name.getD "<base>"
  else if e.tag = Dwarf.tagUnionType then "union " ++ e.name.getD "<anonymous>"
  else if e.tag = Dwarf.tagStructureType ∨ e.tag = Dwarf.tagClassType then
    "struct " ++ e.name.getD "<anonymous>"
  else if e.tag = Dwarf.tagEnumerationType then "enum " ++ e.name.getD "<anonymous>"
  else if e.tag = Dwarf.tagTypedef then e.name.getD "<typedef>"
  else if e.tag = Dwarf.tagArrayType then
    match db.arrayCount e with
    | some n => "[" ++ toString n ++ "]"
    | none => "[]"
  else if e.tag = Dwarf.tagSubroutineType then
    "(" ++ ", ".intercalate (db.parameterNames nested e) ++ ")"
  else ""

/-- The size a link gives the type: a pointer's or reference's byte size (8 without one), a base
or record type's byte size, an enumeration's (4 without one), and an array's byte size, else its
element count times its element's size. -/
def linkSize (e : Entry) : Option UInt64 :=
  if e.tag = Dwarf.tagPointerType ∨ e.tag = Dwarf.tagReferenceType ∨
      e.tag = Dwarf.tagRvalueReferenceType then some (e.byteSize.getD 8)
  else if e.tag = Dwarf.tagBaseType ∨ e.tag = Dwarf.tagStructureType ∨
      e.tag = Dwarf.tagClassType ∨ e.tag = Dwarf.tagUnionType then e.byteSize
  else if e.tag = Dwarf.tagEnumerationType then some (e.byteSize.getD 4)
  else if e.tag = Dwarf.tagArrayType then
    e.byteSize.or do
      let el ← e.typeRef
      let n ← db.arrayCount e
      pure (UInt64.ofNat (n * (nested el).size.toNat))
  else none

/-- The links a name reads: those up to and including the first naming link. -/
def namingLinks : List Entry → List Entry
  | [] => []
  | e :: es => if isNamingTag e.tag then [e] else e :: namingLinks es

/-- The name of a chain: the words of its naming links, innermost first, joined by blanks, behind
`void` when no link names the type. -/
def chainName (es : List Entry) : String :=
  " ".intercalate ((if es.any (isNamingTag ·.tag) then [] else ["void"]) ++
    ((namingLinks es).map (db.linkToken nested)).reverse)

/-- A chain read as a type: its name, and the first size and the first kind along it. -/
def flatten (k : EntryKey) (es : List Entry) : SymbolType :=
  ⟨some k, db.chainName nested es, (es.findSome? (db.linkSize nested)).getD 0,
    (es.findSome? Entry.linkKind).getD .unknown⟩

/-- An array's arithmetic fits in 64 bits: its element count, and, when no outer link has given
a size (`sized` is false) and the array has no byte size, its count times its element's size. -/
def ArrayFits (sized : Bool) (e : Entry) : Prop :=
  ∀ n, db.arrayCount e = some n → n < UInt64.size ∧
    (sized = false → e.byteSize = none → ∀ el ∈ e.typeRef, n * (nested el).size.toNat < UInt64.size)

/-- Every array of a chain fits, each judged by the size the links before it gave. -/
def ArraysFit : Option UInt64 → List Entry → Prop
  | _, [] => True
  | size, e :: es => (e.tag = Dwarf.tagArrayType → db.ArrayFits nested size.isSome e) ∧
      ArraysFit (size.or (db.linkSize nested e)) es

/-- The type at a key resolves, with `levels` levels of nesting, to its flattened chain: the chain
holds at most `maxTypeDepth` links of supported tags, its arrays fit, and the chains nested in its
links resolve, with one level fewer, to the types `nested` gives. -/
inductive Resolves (db : SymbolDatabase) : Nat → EntryKey → SymbolType → Prop
  | chain {levels : Nat} {k : EntryKey} {es : List Entry} (nested : EntryKey → SymbolType) :
      db.TypeChain k es → es.length ≤ maxTypeDepth → (∀ e ∈ es, isTypeTag e.tag) →
      db.ArraysFit nested none es →
      (∀ e ∈ es, ∀ k' ∈ db.nestedKeys e, Resolves db levels k' (nested k')) →
      Resolves db (levels + 1) k (db.flatten nested k es)

/-- Only a naming link can add an empty word: the others add a symbol, a keyword or brackets. -/
theorem linkToken_ne_empty {e : Entry} (htag : isTypeTag e.tag) (hnaming : isNamingTag e.tag = false) :
    db.linkToken nested e ≠ "" := by
  have htags : e.tag = Dwarf.tagConstType ∨ e.tag = Dwarf.tagVolatileType ∨
      e.tag = Dwarf.tagRestrictType ∨ e.tag = Dwarf.tagPointerType ∨
      e.tag = Dwarf.tagReferenceType ∨ e.tag = Dwarf.tagRvalueReferenceType ∨
      e.tag = Dwarf.tagArrayType ∨ e.tag = Dwarf.tagSubroutineType := by
    simp [isTypeTag, isNamingTag, Dwarf.tagArrayType, Dwarf.tagConstType, Dwarf.tagVolatileType,
      Dwarf.tagRestrictType, Dwarf.tagPointerType, Dwarf.tagReferenceType,
      Dwarf.tagRvalueReferenceType, Dwarf.tagBaseType, Dwarf.tagStructureType, Dwarf.tagClassType,
      Dwarf.tagUnionType, Dwarf.tagEnumerationType, Dwarf.tagTypedef,
      Dwarf.tagSubroutineType] at htag hnaming ⊢
    omega
  rcases htags with h | h | h | h | h | h | h | h <;>
    simp [linkToken, h, Dwarf.tagArrayType, Dwarf.tagConstType, Dwarf.tagVolatileType,
      Dwarf.tagRestrictType, Dwarf.tagPointerType, Dwarf.tagReferenceType,
      Dwarf.tagRvalueReferenceType, Dwarf.tagBaseType, Dwarf.tagStructureType, Dwarf.tagClassType,
      Dwarf.tagUnionType, Dwarf.tagEnumerationType, Dwarf.tagTypedef, Dwarf.tagSubroutineType]
  split <;> simp

end SymbolDatabase

/-! ## One link of the walk -/

namespace Resolver

/-- A link's kind and size taken into the chain, each only where no outer link gave one. -/
def Chain.absorb (c : Chain) (kind : Option TypeKind) (size : Option UInt64) : Chain :=
  { c with kind := c.kind.or kind, size := c.size.or size }

/-- The name after a link's token, as the walk updates it: while naming, the token goes in
front; a naming link ends the naming, and a last link that names nothing puts `void` in front. -/
def Chain.named (c : Chain) (tag : Nat) (token : String) (next : Option EntryKey) : Chain :=
  if c.naming then
    let name := prepend token c.name
    if isNamingTag tag then { c with name, naming := false }
    else if next.isNone then { c with name := prepend "void" name }
    else { c with name }
  else c

/-- One link taken into the walk's state, by the table of `linkToken`, `linkKind` and
`linkSize`. -/
def Chain.addLink (db : SymbolDatabase) (nested : EntryKey → SymbolType) (c : Chain) (e : Entry) :
    Chain :=
  (c.absorb e.linkKind (db.linkSize nested e)).named e.tag (db.linkToken nested e) e.nextLink

@[simp] theorem Chain.kind_named (c : Chain) (tag : Nat) (token : String) (next : Option EntryKey) :
    (c.named tag token next).kind = c.kind := by
  unfold Chain.named
  split_ifs <;> rfl

@[simp] theorem Chain.size_named (c : Chain) (tag : Nat) (token : String) (next : Option EntryKey) :
    (c.named tag token next).size = c.size := by
  unfold Chain.named
  split_ifs <;> rfl

variable {r : Resolver} {inner : EntryKey → Checked (Option SymbolType)}

theorem walkChain_none (fuel : Nat) (c : Chain) : r.walkChain inner fuel c none = .ok (some c) := by
  cases fuel <;> rfl

/-- One link of the walk: its step, then the naming update, then the walk from its next link. -/
theorem walkChain_link {fuel : Nat} {c c' : Chain} {k : EntryKey} {e : Entry} {token : String}
    {next : Option EntryKey} (he : r.db.entry k = some e)
    (hs : walkChain.step r inner e c = .ok (some (token, c', next))) :
    r.walkChain inner (fuel + 1) c (some k) =
      r.walkChain inner fuel (c'.named e.tag token next) next := by
  simp only [walkChain, he, hs]
  rfl

/-- An array's element count as the walk reads it, when the upper bound plus one fits. -/
theorem arrayLength_eq (e : Entry) (hfit : ∀ n, r.db.arrayCount e = some n → n < UInt64.size) :
    r.arrayLength e = pure ((r.db.arrayCount e).map UInt64.ofNat) := by
  unfold arrayLength SymbolDatabase.arrayCount at *
  split
  next hnone => simp [hnone]
  next sub hsub =>
    simp only [hsub] at hfit ⊢
    split
    next n hn => simp [hn]
    next hn =>
      simp only [hn] at hfit ⊢
      split
      next u hu =>
        have hbound := hfit (u.toNat + 1) (by simp [hu])
        simp [Checked.add, hu, hbound]
        rfl
      next hu => simp [hu]

/-- A count below `2^64` prints the same as a machine word. -/
theorem toString_ofNat_of_lt {n : Nat} (h : n < UInt64.size) : toString (UInt64.ofNat n) = toString n := by
  show toString (UInt64.ofNat n).toNat = toString n
  rw [UInt64.toNat_ofNat_of_lt' h]

/-- A product below `2^64` passes the check. -/
theorem mul_ofNat_of_lt {n : Nat} {s : UInt64} (site : OverflowSite) (hn : n < UInt64.size)
    (h : n * s.toNat < UInt64.size) : Checked.mul site (UInt64.ofNat n) s = pure (UInt64.ofNat n * s) := by
  simp only [Checked.mul, UInt64.toNat_ofNat_of_lt' hn, h, if_true]
  rfl

/-- A list walk in `Checked` that succeeds at each element is the plain walk. -/
theorem filterMapM_checked {α β : Type} {f : α → Checked (Option β)} {g : α → Option β} :
    ∀ {l : List α}, (∀ x ∈ l, f x = pure (g x)) → l.filterMapM f = pure (l.filterMap g)
  | [], _ => rfl
  | x :: l, h => by
    rw [List.filterMapM_cons, h x List.mem_cons_self,
      filterMapM_checked fun y hy => h y (List.mem_cons_of_mem x hy)]
    cases hg : g x
    · rw [List.filterMap_cons_none hg]
      rfl
    · rw [List.filterMap_cons_some hg]
      rfl

variable {nested : EntryKey → SymbolType} {e : Entry} {c : Chain}

theorem walkStep_array (harray : e.tag = Dwarf.tagArrayType)
    (hinner : ∀ k ∈ r.db.nestedKeys e, inner k = pure (some (nested k)))
    (hfit : r.db.ArrayFits nested c.size.isSome e) :
    walkChain.step r inner e c =
      pure (some (r.db.linkToken nested e, c.absorb e.linkKind (r.db.linkSize nested e), e.nextLink)) := by
  have hcount := arrayLength_eq (r := r) e fun n hn => (hfit n hn).1
  have hel : ∀ el, e.typeRef = some el → inner el = pure (some (nested el)) := fun el ht =>
    hinner el (by simp [SymbolDatabase.nestedKeys, harray, ht])
  simp only [walkChain.step, harray, Dwarf.tagArrayType, Dwarf.tagConstType, Dwarf.tagVolatileType,
    Dwarf.tagRestrictType, Dwarf.tagPointerType, Dwarf.tagReferenceType, Dwarf.tagRvalueReferenceType,
    Dwarf.tagBaseType, Dwarf.tagStructureType, Dwarf.tagClassType, Dwarf.tagUnionType,
    Dwarf.tagEnumerationType, Dwarf.tagTypedef, Dwarf.tagSubroutineType, hcount, pure_bind,
    SymbolDatabase.linkToken, SymbolDatabase.linkSize, Entry.linkKind, Entry.nextLink, endsChainTag,
    Chain.absorb]
  cases hn : r.db.arrayCount e with
  | none =>
    cases hs : c.size <;> cases hb : e.byteSize <;> cases ht : e.typeRef <;> simp [hel, ht]
  | some n =>
    obtain ⟨hn64, hprod⟩ := hfit n hn
    cases hs : c.size <;> cases hb : e.byteSize <;> cases ht : e.typeRef <;>
      simp [hel, ht, toString_ofNat_of_lt hn64]
    rename_i el
    simp [mul_ofNat_of_lt .arraySize hn64 (hprod (by simp [hs]) hb el ht)]

theorem walkStep_subroutine (hsub : e.tag = Dwarf.tagSubroutineType)
    (hinner : ∀ k ∈ r.db.nestedKeys e, inner k = pure (some (nested k))) :
    walkChain.step r inner e c =
      pure (some (r.db.linkToken nested e, c.absorb e.linkKind (r.db.linkSize nested e), e.nextLink)) := by
  simp only [walkChain.step, hsub, Dwarf.tagArrayType, Dwarf.tagConstType, Dwarf.tagVolatileType,
    Dwarf.tagRestrictType, Dwarf.tagPointerType, Dwarf.tagReferenceType, Dwarf.tagRvalueReferenceType,
    Dwarf.tagBaseType, Dwarf.tagStructureType, Dwarf.tagClassType, Dwarf.tagUnionType,
    Dwarf.tagEnumerationType, Dwarf.tagTypedef, Dwarf.tagSubroutineType,
    SymbolDatabase.linkToken, SymbolDatabase.linkSize, Entry.linkKind, Entry.nextLink, endsChainTag,
    Chain.absorb, SymbolDatabase.parameterNames]
  rw [filterMapM_checked (g := SymbolDatabase.parameterWord nested)]
  · simp
  -- each child gives its word; a formal parameter's type is one of the link's nested keys
  intro child hchild
  by_cases hformal : child.tag = Dwarf.tagFormalParameter
  · cases htype : child.typeRef with
    | none => simp [hformal, htype, SymbolDatabase.parameterWord]
    | some k =>
      have hk : k ∈ r.db.nestedKeys e := by
        simp only [SymbolDatabase.nestedKeys, hsub, Dwarf.tagArrayType, Dwarf.tagSubroutineType]
        exact List.mem_filterMap.2 ⟨child, hchild, by simp [hformal, htype]⟩
      simp [hformal, htype, hinner k hk, SymbolDatabase.parameterWord]
  · by_cases hunspecified : child.tag = Dwarf.tagUnspecifiedParameters
    · simp [hunspecified, SymbolDatabase.parameterWord, Dwarf.tagUnspecifiedParameters,
        Dwarf.tagFormalParameter]
    · simp [hformal, hunspecified, SymbolDatabase.parameterWord]

/-- One step of the walk reads the link's row of the table, for every supported tag. -/
theorem walkStep_eq (htag : isTypeTag e.tag)
    (hinner : ∀ k ∈ r.db.nestedKeys e, inner k = pure (some (nested k)))
    (hfit : e.tag = Dwarf.tagArrayType → r.db.ArrayFits nested c.size.isSome e) :
    walkChain.step r inner e c =
      pure (some (r.db.linkToken nested e, c.absorb e.linkKind (r.db.linkSize nested e), e.nextLink)) := by
  by_cases harray : e.tag = Dwarf.tagArrayType
  · exact walkStep_array harray hinner (hfit harray)
  by_cases hsub : e.tag = Dwarf.tagSubroutineType
  · exact walkStep_subroutine hsub hinner
  -- the other tags nest no chain: each reads a constant row
  have htags : e.tag = Dwarf.tagConstType ∨ e.tag = Dwarf.tagVolatileType ∨
      e.tag = Dwarf.tagRestrictType ∨ e.tag = Dwarf.tagPointerType ∨
      e.tag = Dwarf.tagReferenceType ∨ e.tag = Dwarf.tagRvalueReferenceType ∨
      e.tag = Dwarf.tagBaseType ∨ e.tag = Dwarf.tagStructureType ∨ e.tag = Dwarf.tagClassType ∨
      e.tag = Dwarf.tagUnionType ∨ e.tag = Dwarf.tagEnumerationType ∨ e.tag = Dwarf.tagTypedef := by
    simpa [isTypeTag, harray, hsub] using htag
  rcases htags with h | h | h | h | h | h | h | h | h | h | h | h <;>
    simp [walkChain.step, h, Dwarf.tagArrayType, Dwarf.tagConstType, Dwarf.tagVolatileType,
      Dwarf.tagRestrictType, Dwarf.tagPointerType, Dwarf.tagReferenceType,
      Dwarf.tagRvalueReferenceType, Dwarf.tagBaseType, Dwarf.tagStructureType, Dwarf.tagClassType,
      Dwarf.tagUnionType, Dwarf.tagEnumerationType, Dwarf.tagTypedef, SymbolDatabase.linkToken,
      SymbolDatabase.linkSize, Entry.linkKind, Entry.nextLink, endsChainTag, Chain.absorb]

@[simp] theorem Chain.kind_addLink (db : SymbolDatabase) (c : Chain) (e : Entry) :
    (c.addLink db nested e).kind = c.kind.or e.linkKind := by
  simp [Chain.addLink, Chain.absorb]

@[simp] theorem Chain.size_addLink (db : SymbolDatabase) (c : Chain) (e : Entry) :
    (c.addLink db nested e).size = c.size.or (db.linkSize nested e) := by
  simp [Chain.addLink, Chain.absorb]

/-- The walk along a chain within its fuel takes in every link, outermost first. -/
theorem walkChain_of_typeChain {k : EntryKey} {es : List Entry} (hchain : r.db.TypeChain k es)
    {fuel : Nat} {c : Chain} (hfuel : es.length ≤ fuel) (htags : ∀ e ∈ es, isTypeTag e.tag)
    (hinner : ∀ e ∈ es, ∀ k' ∈ r.db.nestedKeys e, inner k' = pure (some (nested k')))
    (hfit : r.db.ArraysFit nested c.size es) :
    r.walkChain inner fuel c (some k) = pure (some (es.foldl (Chain.addLink r.db nested) c)) := by
  induction hchain generalizing fuel c with
  | @last k e he hnext =>
    cases fuel with
    | zero => simp at hfuel
    | succ fuel =>
      have hstep := walkStep_eq (htags e List.mem_cons_self) (hinner e List.mem_cons_self) hfit.1
      rw [walkChain_link he hstep]
      change r.walkChain inner fuel (c.addLink r.db nested e) e.nextLink = _
      rw [hnext, walkChain_none]
      rfl
  | @link k k' e es he hnext _ ih =>
    cases fuel with
    | zero => simp at hfuel
    | succ fuel =>
      have hstep := walkStep_eq (htags e List.mem_cons_self) (hinner e List.mem_cons_self) hfit.1
      rw [walkChain_link he hstep]
      change r.walkChain inner fuel (c.addLink r.db nested e) e.nextLink = _
      rw [hnext, List.foldl_cons]
      apply ih (by simpa using hfuel) (fun e' he' => htags e' (List.mem_cons_of_mem e he'))
        (fun e' he' => hinner e' (List.mem_cons_of_mem e he'))
      simpa using hfit.2

/-! ## What the walk gathers -/

theorem findSome?_cons_eq_or {α β : Type} (f : α → Option β) (a : α) (l : List α) :
    (a :: l).findSome? f = (f a).or (l.findSome? f) := by
  cases h : f a <;> simp [h]

/-- The kind gathered along a chain is the first kind a link gives, unless one was there. -/
theorem Chain.kind_foldl_addLink (db : SymbolDatabase) (es : List Entry) (c : Chain) :
    (es.foldl (Chain.addLink db nested) c).kind = c.kind.or (es.findSome? Entry.linkKind) := by
  induction es generalizing c with
  | nil => simp
  | cons e es ih =>
    rw [List.foldl_cons, ih, Chain.kind_addLink, findSome?_cons_eq_or, Option.or_assoc]

/-- The size gathered along a chain is the first size a link gives, unless one was there. -/
theorem Chain.size_foldl_addLink (db : SymbolDatabase) (es : List Entry) (c : Chain) :
    (es.foldl (Chain.addLink db nested) c).size = c.size.or (es.findSome? (db.linkSize nested)) := by
  induction es generalizing c with
  | nil => simp
  | cons e es ih =>
    rw [List.foldl_cons, ih, Chain.size_addLink, findSome?_cons_eq_or, Option.or_assoc]

@[simp] theorem Chain.name_absorb (c : Chain) (kind : Option TypeKind) (size : Option UInt64) :
    (c.absorb kind size).name = c.name := rfl

@[simp] theorem Chain.naming_absorb (c : Chain) (kind : Option TypeKind) (size : Option UInt64) :
    (c.absorb kind size).naming = c.naming := rfl

/-- Once a link has named the type, later links leave the name alone. -/
theorem Chain.named_of_not_naming {c : Chain} (hc : c.naming = false) (tag : Nat) (token : String)
    (next : Option EntryKey) : c.named tag token next = c := by
  simp [Chain.named, hc]

theorem Chain.name_foldl_of_not_naming (db : SymbolDatabase) (es : List Entry) {c : Chain}
    (hc : c.naming = false) : (es.foldl (Chain.addLink db nested) c).name = c.name := by
  induction es generalizing c with
  | nil => rfl
  | cons e es ih =>
    rw [List.foldl_cons, ih (by simp [Chain.addLink, Chain.named_of_not_naming, hc])]
    simp [Chain.addLink, Chain.named_of_not_naming, hc]

/-- Words joined by blanks behind a first word that is not empty are not empty. -/
theorem intercalate_cons_ne_empty {w : String} (ws : List String) (hw : w ≠ "") :
    " ".intercalate (w :: ws) ≠ "" := by
  cases ws with
  | nil => simpa [String.intercalate_singleton] using hw
  | cons u ws => simp [String.intercalate_cons_cons, String.append_eq_empty_iff, hw]

/-- Putting a token in front of a name joins it to the name's words by a blank. -/
theorem prepend_intercalate (t : String) {ws : List String} (hws : ∀ w ∈ ws, w ≠ "") :
    prepend t (" ".intercalate ws) = " ".intercalate (t :: ws) := by
  cases ws with
  | nil => simp [prepend, String.intercalate_singleton]
  | cons w ws =>
    have hne := intercalate_cons_ne_empty ws (hws w List.mem_cons_self)
    simp [prepend, String.intercalate_cons_cons, hne, String.isEmpty_iff]

/-- The name the walk builds along a chain from a state that still names, its name so far being
the words `ws`: the chain's words go in front, innermost first, behind `void` if no link names
the type. The invariant is that every word so far is not empty, which holds because only a naming
link, after which nothing is put in front, can add an empty word. -/
theorem Chain.name_foldl_addLink {db : SymbolDatabase} {k : EntryKey} {es : List Entry}
    (hchain : db.TypeChain k es) (htags : ∀ e ∈ es, isTypeTag e.tag) {c : Chain} {ws : List String}
    (hnaming : c.naming = true) (hname : c.name = " ".intercalate ws) (hws : ∀ w ∈ ws, w ≠ "") :
    (es.foldl (Chain.addLink db nested) c).name =
      " ".intercalate ((if es.any (isNamingTag ·.tag) then [] else ["void"]) ++
        ((SymbolDatabase.namingLinks es).map (db.linkToken nested)).reverse ++ ws) := by
  induction hchain generalizing c ws with
  | @last k e he hnext =>
    have htoken := fun hn => db.linkToken_ne_empty nested (htags e List.mem_cons_self) hn
    cases hn : isNamingTag e.tag
    · -- the chain ends on a link that names nothing
      have hws' : ∀ w ∈ db.linkToken nested e :: ws, w ≠ "" := by
        simpa [htoken hn] using hws
      simp only [List.foldl_cons, List.foldl_nil, Chain.addLink, Chain.named, Chain.naming_absorb,
        Chain.name_absorb, hnaming, hn, hnext, hname, if_true, Option.isNone_none, Bool.false_eq_true,
        if_false, prepend_intercalate _ hws, prepend_intercalate _ hws']
      simp [SymbolDatabase.namingLinks, hn]
    · simp only [List.foldl_cons, List.foldl_nil, Chain.addLink, Chain.named, Chain.naming_absorb,
        Chain.name_absorb, hnaming, hn, hname, if_true, prepend_intercalate _ hws]
      simp [SymbolDatabase.namingLinks, hn]
  | @link k k' e es he hnext hchain ih =>
    have htoken := fun hn => db.linkToken_ne_empty nested (htags e List.mem_cons_self) hn
    cases hn : isNamingTag e.tag
    · -- a link that names nothing puts its word in front and the walk goes on naming
      have hws' : ∀ w ∈ db.linkToken nested e :: ws, w ≠ "" := by
        simpa [htoken hn] using hws
      rw [List.foldl_cons, ih (fun e' he' => htags e' (List.mem_cons_of_mem e he'))
        (by simp [Chain.addLink, Chain.named, hnaming, hn, hnext])
        (by simp [Chain.addLink, Chain.named, hnaming, hn, hnext, hname, prepend_intercalate _ hws]) hws']
      simp [SymbolDatabase.namingLinks, hn]
    · -- a naming link ends the naming
      rw [List.foldl_cons, Chain.name_foldl_of_not_naming db es (by simp [Chain.addLink, Chain.named, hnaming, hn])]
      simp only [Chain.addLink, Chain.named, Chain.naming_absorb, Chain.name_absorb, hnaming, hn, hname,
        if_true, prepend_intercalate _ hws]
      simp [SymbolDatabase.namingLinks, hn]

/-! ## Resolving a type -/

/-- A type that resolves with some levels of nesting is what the resolution with those levels
returns. The induction is on the resolution, so each nested chain is at hand, resolved one level
down, when the walk of the outer chain needs it. -/
theorem resolveType_of_resolves {db : SymbolDatabase} (base : Address) {levels : Nat}
    {k : EntryKey} {t : SymbolType} (h : db.Resolves levels k t) :
    (ofDatabase db base).resolveType levels k = pure (some t) := by
  induction h with
  | @chain levels k es nested hchain hlength htags hfit _ ih =>
    have hwalk : (ofDatabase db base).walkChain ((ofDatabase db base).resolveType levels)
        maxTypeDepth {} (some k) = pure (some (es.foldl (Chain.addLink db nested) {})) :=
      walkChain_of_typeChain hchain hlength htags ih hfit
    -- the walk starts naming with no words
    have hname : (es.foldl (Chain.addLink db nested) {}).name = db.chainName nested es := by
      rw [Chain.name_foldl_addLink hchain htags rfl (by simp : ({} : Chain).name = " ".intercalate [])
        (by simp), List.append_nil]
      rfl
    simp only [resolveType, hwalk, pure_bind]
    simp [SymbolDatabase.flatten, hname, Chain.kind_foldl_addLink, Chain.size_foldl_addLink]

end Resolver

open Resolver

/-- The type at a key, over a database at any base, is its flattened chain whenever the chain
resolves with the levels of nesting the resolver allows: at most `maxTypeDepth` links of
supported tags, arrays whose arithmetic fits in 64 bits, and nested chains that resolve alike. -/
theorem symbolType_of_resolves {db : SymbolDatabase} (base : Address) {k : EntryKey}
    {t : SymbolType} (h : db.Resolves (maxTypeDepth + 1) k t) :
    (ofDatabase db base).symbolType k = .ok t := by
  simp only [symbolType, resolveType_of_resolves base h, pure_bind]
  rfl

/-- `int`: four bytes, signed. -/
def signedIntEntry : Entry :=
  { key := ⟨0x10⟩, parent := none, tag := Dwarf.tagBaseType,
    attributes := [(Dwarf.atName, .string "int"), (Dwarf.atByteSize, .unsigned 4),
      (Dwarf.atEncoding, .unsigned 5)] }

/-- `int const`. -/
def constIntEntry : Entry :=
  { key := ⟨0x20⟩, parent := none, tag := Dwarf.tagConstType,
    attributes := [(Dwarf.atType, .reference ⟨0x10⟩)] }

/-- An array of `int const` without a byte size, whose size comes from its element. -/
def constIntArrayEntry : Entry :=
  { key := ⟨0x30⟩, parent := none, tag := Dwarf.tagArrayType,
    attributes := [(Dwarf.atType, .reference ⟨0x20⟩)] }

/-- The array's subrange: four elements. -/
def fourElementsEntry : Entry :=
  { key := ⟨0x38⟩, parent := some ⟨0x30⟩, tag := Dwarf.tagSubrangeType,
    attributes := [(Dwarf.atCount, .unsigned 4)] }

def constArraySteps : List BuildStep :=
  [.entry signedIntEntry, .entry constIntEntry, .entry constIntArrayEntry, .entry fourElementsEntry]

/-- The database the builder makes of `constArraySteps`. -/
def constArrayDb : SymbolDatabase :=
  match (DatabaseBuilder.ofSteps constArraySteps).build with
  | .ok db => db
  | .error _ => .empty

theorem symbolType_of_resolves_constArray :
    (DatabaseBuilder.ofSteps constArraySteps).build = .ok constArrayDb ∧
      constArrayDb.Resolves (maxTypeDepth + 1) ⟨0x30⟩ ⟨some ⟨0x30⟩, "int const [4]", 16, .struct⟩ ∧
      (ofDatabase constArrayDb 0x400000).symbolType ⟨0x30⟩ =
        .ok ⟨some ⟨0x30⟩, "int const [4]", 16, .struct⟩ := by
  have hint : constArrayDb.entry ⟨0x10⟩ = some signedIntEntry := by decide +kernel
  have hconst : constArrayDb.entry ⟨0x20⟩ = some constIntEntry := by decide +kernel
  have harray : constArrayDb.entry ⟨0x30⟩ = some constIntArrayEntry := by decide +kernel
  -- the element's chain `int const`, which nests nothing
  have helement : constArrayDb.Resolves maxTypeDepth ⟨0x20⟩ ⟨some ⟨0x20⟩, "int const", 4, .int⟩ := by
    have hflat : constArrayDb.flatten (fun _ => .unknown) ⟨0x20⟩ [constIntEntry, signedIntEntry] =
        ⟨some ⟨0x20⟩, "int const", 4, .int⟩ := by decide +kernel
    rw [← hflat]
    refine .chain _ (.link hconst (by decide) (.last hint (by decide))) (by decide)
      (by decide) ⟨fun h => absurd h (by decide), fun h => absurd h (by decide), trivial⟩ ?_
    intro e he k hk
    have hnone : ∀ e ∈ [constIntEntry, signedIntEntry], constArrayDb.nestedKeys e = [] := by
      decide +kernel
    simp [hnone e he] at hk
  -- the array's chain: four elements of four bytes
  let element : EntryKey → SymbolType := fun _ => ⟨some ⟨0x20⟩, "int const", 4, .int⟩
  have hflat : constArrayDb.flatten element ⟨0x30⟩ [constIntArrayEntry, constIntEntry, signedIntEntry] =
      ⟨some ⟨0x30⟩, "int const [4]", 16, .struct⟩ := by decide +kernel
  have hcount : constArrayDb.arrayCount constIntArrayEntry = some 4 := by decide +kernel
  have hfit : constArrayDb.ArraysFit element none
      [constIntArrayEntry, constIntEntry, signedIntEntry] := by
    refine ⟨fun _ n hn => ?_, fun h => absurd h (by decide), fun h => absurd h (by decide), trivial⟩
    rw [hcount, Option.some.injEq] at hn
    subst hn
    exact ⟨by decide, fun _ _ _ _ => by decide⟩
  have hkeys : constArrayDb.nestedKeys constIntArrayEntry = [⟨0x20⟩] := by decide +kernel
  have hres : constArrayDb.Resolves (maxTypeDepth + 1) ⟨0x30⟩
      ⟨some ⟨0x30⟩, "int const [4]", 16, .struct⟩ := by
    rw [← hflat]
    refine .chain element (.link harray (by decide) (.link hconst (by decide) (.last hint (by decide))))
      (by decide) (by decide) hfit ?_
    intro e he k hk
    have hnone : ∀ e ∈ [constIntEntry, signedIntEntry], constArrayDb.nestedKeys e = [] := by
      decide +kernel
    rcases List.mem_cons.1 he with rfl | he
    · rw [hkeys, List.mem_singleton] at hk
      subst hk
      exact helement
    · simp [hnone e he] at hk
  exact ⟨rfl, hres, symbolType_of_resolves 0x400000 hres⟩

end RemoteDebugger
