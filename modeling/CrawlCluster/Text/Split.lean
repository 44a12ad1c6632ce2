set_option autoImplicit false

namespace CrawlCluster.Text

/-- The pieces of a list between the occurrences of `sep`; one more than there are of them. -/
def splitOn (sep : Char) : List Char → List (List Char)
  | [] => [[]]
  | c :: cs =>
    if c = sep then [] :: splitOn sep cs
    else
      match splitOn sep cs with
      | [] => [[c]]
      | piece :: pieces => (c :: piece) :: pieces

def cutFirst (sep : Char) : List Char → Option (List Char × List Char)
  | [] => none
  | c :: cs => if c = sep then some ([], cs) else (cutFirst sep cs).map fun (a, b) => (c :: a, b)

def cutLast (sep : Char) (cs : List Char) : Option (List Char × List Char) :=
  (cutFirst sep cs.reverse).map fun (b, a) => (a.reverse, b.reverse)

/-- At most `n` pieces; the last of them keeps any further separators. -/
def splitOnUpTo (sep : Char) : Nat → List Char → List (List Char)
  | 0, _ => []
  | 1, cs => [cs]
  | n + 2, cs =>
    match cutFirst sep cs with
    | none => [cs]
    | some (piece, rest) => piece :: splitOnUpTo sep (n + 1) rest

def split (sep : Char) (s : String) : List String :=
  (splitOn sep s.toList).map String.ofList

def splitUpTo (sep : Char) (n : Nat) (s : String) : List String :=
  (splitOnUpTo sep n s.toList).map String.ofList

def splitFirst? (sep : Char) (s : String) : Option (String × String) :=
  (cutFirst sep s.toList).map fun (a, b) => (String.ofList a, String.ofList b)

def splitLast? (sep : Char) (s : String) : Option (String × String) :=
  (cutLast sep s.toList).map fun (a, b) => (String.ofList a, String.ofList b)

def join (sep : Char) (pieces : List String) : String :=
  String.ofList ([sep].intercalate (pieces.map String.toList))

/-- Text without one trailing `last`, if it ends in one. -/
def dropTrailing (last : Char) (s : String) : String :=
  match s.toList.reverse with
  | [] => s
  | c :: cs => if c = last then String.ofList cs.reverse else s

theorem splitOn_ne_nil (sep : Char) (cs : List Char) : splitOn sep cs ≠ [] := by
  cases cs with
  | nil => simp [splitOn]
  | cons c cs =>
    rw [splitOn]
    split
    · simp
    · split <;> simp

@[simp] theorem intercalate_splitOn (sep : Char) (cs : List Char) :
    [sep].intercalate (splitOn sep cs) = cs := by
  induction cs with
  | nil => rfl
  | cons c cs ih =>
    rw [splitOn]
    cases h : splitOn sep cs with
    | nil => exact absurd h (splitOn_ne_nil sep cs)
    | cons piece pieces =>
      rw [h] at ih
      split
      · next hc => subst hc; cases pieces <;> simp_all [List.intercalate, List.intersperse]
      · cases pieces <;> simp_all [List.intercalate, List.intersperse]

theorem splitOn_of_not_mem {sep : Char} {cs : List Char} (h : sep ∉ cs) :
    splitOn sep cs = [cs] := by
  induction cs with
  | nil => rfl
  | cons c cs ih =>
    simp only [List.mem_cons, not_or] at h
    simp [splitOn, Ne.symm h.1, ih h.2]

theorem splitOn_append {sep : Char} {cs : List Char} (h : sep ∉ cs) (rest : List Char) :
    splitOn sep (cs ++ sep :: rest) = cs :: splitOn sep rest := by
  induction cs with
  | nil => simp [splitOn]
  | cons c cs ih =>
    simp only [List.mem_cons, not_or] at h
    simp [splitOn, Ne.symm h.1, ih h.2]

theorem splitOn_intercalate {sep : Char} {pieces : List (List Char)} (hne : pieces ≠ [])
    (h : ∀ p ∈ pieces, sep ∉ p) : splitOn sep ([sep].intercalate pieces) = pieces := by
  induction pieces with
  | nil => exact absurd rfl hne
  | cons p ps ih =>
    cases ps with
    | nil => simpa [List.intercalate] using splitOn_of_not_mem (h p (by simp))
    | cons q qs =>
      have hrest := ih (by simp) fun r hr => h r (List.mem_cons_of_mem _ hr)
      have hcons : [sep].intercalate (p :: q :: qs) = p ++ sep :: [sep].intercalate (q :: qs) := by
        simp [List.intercalate, List.intersperse]
      rw [hcons, splitOn_append (h p (by simp)), hrest]

@[simp] theorem join_split (sep : Char) (s : String) : join sep (split sep s) = s := by
  have h : (split sep s).map String.toList = splitOn sep s.toList := by simp [split]
  rw [join, h, intercalate_splitOn, String.ofList_toList]

theorem split_join {sep : Char} {pieces : List String} (hne : pieces ≠ [])
    (h : ∀ p ∈ pieces, sep ∉ p.toList) : split sep (join sep pieces) = pieces := by
  have hpieces : pieces.map String.toList ≠ [] := by simpa using hne
  rw [split, join, String.toList_ofList, splitOn_intercalate hpieces (by simpa using h)]
  simp

theorem not_mem_of_mem_splitOn {sep : Char} {cs piece : List Char}
    (h : piece ∈ splitOn sep cs) : sep ∉ piece := by
  induction cs generalizing piece with
  | nil => simp_all [splitOn]
  | cons c cs ih =>
    rw [splitOn] at h
    split at h
    · rcases List.mem_cons.1 h with rfl | h
      · simp
      · exact ih h
    · next hc =>
      split at h
      · next hs => exact absurd hs (splitOn_ne_nil sep cs)
      · next q qs hs =>
        rcases List.mem_cons.1 h with rfl | h
        · simpa [Ne.symm hc] using ih (by simp [hs] : q ∈ splitOn sep cs)
        · exact ih (by simp [hs, h])

end CrawlCluster.Text
