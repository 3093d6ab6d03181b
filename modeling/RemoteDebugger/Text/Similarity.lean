/-!
# Similarity of words

The Jaro similarity of two words in double precision, used to suggest the word that was
probably meant.
-/

namespace RemoteDebugger.Similarity

/-- Mark the first unmatched character of `b` in the window `[lo, hi)` equal to `c`. -/
def claim (b : Array Char) (taken : Array Bool) (c : Char) (lo hi : Nat) : Option (Array Bool) :=
  match (List.range (hi - lo)).find? fun k =>
      b[lo + k]? = some c ∧ taken[lo + k]? = some false with
  | some k => some (taken.set! (lo + k) true)
  | none => none

/-- The number of matching characters and which characters of each word matched. -/
def matching (a b : Array Char) : Nat × Array Bool × Array Bool :=
  let range := (max a.size b.size) / 2 - 1
  (List.range a.size).foldl (fun (m, aFlags, bFlags) i =>
    let lo := i - range
    let hi := min b.size (i + range + 1)
    match a[i]? with
    | none => (m, aFlags, bFlags)
    | some c =>
      match claim b bFlags c lo hi with
      | some bFlags => (m + 1, aFlags.set! i true, bFlags)
      | none => (m, aFlags, bFlags))
    (0, Array.replicate a.size false, Array.replicate b.size false)

/-- The matched characters of a word, in order. -/
def matched (w : Array Char) (flags : Array Bool) : List Char :=
  (w.toList.zip flags.toList).filterMap fun (c, f) => if f then some c else none

/-- The Jaro similarity of two words. -/
def jaro (a b : String) : Float :=
  let a := a.toList.toArray
  let b := b.toList.toArray
  if a.isEmpty ∧ b.isEmpty then 1
  else if a.isEmpty ∨ b.isEmpty then 0
  else
    let (m, aFlags, bFlags) := matching a b
    if m = 0 then 0
    else
      let outOfOrder := ((matched a aFlags).zip (matched b bFlags)).countP fun (x, y) => x ≠ y
      let t := outOfOrder / 2
      (m.toFloat / a.size.toFloat + m.toFloat / b.size.toFloat + (m - t).toFloat / m.toFloat) / 3

/-- The words of `candidates` more than 70% similar to `word`, least similar first; equally
similar words keep their order. -/
def suggestions (word : String) (candidates : List String) : List String :=
  let scored := (candidates.map fun c => (jaro word c, c)).filter fun (r, _) => r > 0.7
  (scored.mergeSort fun x y => x.1 <= y.1).map (·.2)

end RemoteDebugger.Similarity
