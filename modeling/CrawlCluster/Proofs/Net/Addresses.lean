import CrawlCluster.Net.Ip
import CrawlCluster.Proofs.Text.Pieces
import Mathlib.Data.List.TakeWhile

/-!
Internet addresses, written and read. Main statement: `ofText?_text`, that every address is read
back from its own text, whichever zeros are left out of it.
-/

set_option autoImplicit false

namespace CrawlCluster.Net.Ip

open Text (join toList_join_cons toList_join_singleton)

section Numbers

variable {radix bound : Nat} {maxDigits : Option Nat} {zeroFirst : Bool} {rest : List Char}

theorem digitValue_digitChar {d : Nat} (hle : radix ≤ 16) (hd : d < radix) :
    digitValue radix d.digitChar = some d := by
  rw [digitValue, Text.Hex.digit?_digitChar d (by omega), Option.filter_some]
  simp [hd]

def value (radix : Nat) (digits : List Char) : Nat :=
  (digits.filterMap (digitValue radix)).foldl (fun n d => n * radix + d) 0

theorem value_append_digitChar {d : Nat} (hle : radix ≤ 16) (hd : d < radix) (digits : List Char) :
    value radix (digits ++ [d.digitChar]) = value radix digits * radix + d := by
  simp only [value, List.filterMap_append, List.filterMap_cons, digitValue_digitChar hle hd,
    List.filterMap_nil, List.foldl_append, List.foldl_cons, List.foldl_nil]

/-- By the last digit, which is written behind what is written for the digits before it. -/
theorem digits_toDigits (hradix : 1 < radix) (hle : radix ≤ 16) (n : Nat) :
    (∀ c ∈ Nat.toDigits radix n, (digitValue radix c).isSome) ∧
      value radix (Nat.toDigits radix n) = n ∧
      ((Nat.toDigits radix n).head? = some '0' → n = 0) := by
  induction n using Nat.strongRecOn with
  | ind n ih =>
    by_cases hn : n < radix
    · rw [Nat.toDigits_of_lt_base hn]
      have hdigit := digitValue_digitChar hle hn
      refine ⟨by simp [hdigit], ?_, by simp⟩
      simpa [value] using value_append_digitChar hle hn []
    · have hpos : 0 < n / radix := Nat.div_pos (by omega) (by omega)
      have hmod : n % radix < radix := Nat.mod_lt n (by omega)
      obtain ⟨hdigits, hvalue, hhead⟩ := ih (n / radix) (Nat.div_lt_self (by omega) hradix)
      rw [Nat.toDigits_of_base_le hradix (by omega)]
      refine ⟨?_, ?_, ?_⟩
      · intro c hc
        rcases List.mem_append.1 hc with hc | hc
        · exact hdigits c hc
        · rw [List.mem_singleton.1 hc, digitValue_digitChar hle hmod]
          rfl
      · rw [value_append_digitChar hle hmod, hvalue, Nat.div_add_mod']
      · intro h
        obtain ⟨c, cs, hcons⟩ := List.exists_cons_of_ne_nil (@Nat.toDigits_ne_nil (n / radix) radix)
        rw [hcons] at h hhead
        exact absurd (hhead h) (by omega)

def Stops (radix : Nat) (rest : List Char) : Prop :=
  ∀ c, rest.head? = some c → digitValue radix c = none

theorem Stops.takeWhile (h : Stops radix rest) :
    rest.takeWhile (fun c => (digitValue radix c).isSome) = [] := by
  cases rest with
  | nil => rfl
  | cons c cs => simp [h c rfl]

theorem Stops.dropWhile (h : Stops radix rest) :
    rest.dropWhile (fun c => (digitValue radix c).isSome) = rest := by
  cases rest with
  | nil => rfl
  | cons c cs => simp [h c rfl]

theorem readNumber_toDigits {n : Nat} (hradix : 1 < radix) (hle : radix ≤ 16) (hn : n < bound)
    (hlength : maxDigits.all ((Nat.toDigits radix n).length ≤ ·) = true)
    (hrest : Stops radix rest) :
    readNumber radix bound maxDigits zeroFirst (Nat.toDigits radix n ++ rest) = some (n, rest) := by
  obtain ⟨hdigits, hvalue, hhead⟩ := digits_toDigits hradix hle n
  have htake : (Nat.toDigits radix n ++ rest).takeWhile (fun c => (digitValue radix c).isSome) =
      Nat.toDigits radix n := by
    rw [List.takeWhile_append_of_pos hdigits, hrest.takeWhile, List.append_nil]
  have hdrop : (Nat.toDigits radix n ++ rest).dropWhile (fun c => (digitValue radix c).isSome) =
      rest := by
    rw [List.dropWhile_append_of_pos hdigits, hrest.dropWhile]
  have hempty : (Nat.toDigits radix n).isEmpty = false := by simp [Nat.toDigits_ne_nil]
  have hpadded : (1 < (Nat.toDigits radix n).length &&
      (Nat.toDigits radix n).head? == some '0') = false := by
    by_cases h : (Nat.toDigits radix n).head? = some '0'
    · rw [hhead h, Nat.toDigits_zero]
      rfl
    · simp [h]
  rw [value] at hvalue
  simp only [readNumber, htake, hdrop, hvalue, hempty, hlength, hpadded, Bool.not_true,
    Bool.false_and, Bool.or_false, Bool.false_or, decide_eq_true_eq, if_neg (Nat.not_le.2 hn)]

end Numbers

section Version4

variable {rest : List Char}

theorem readOctet_rest {cs : List Char} {b : UInt8} (h : readOctet cs = some (b, rest)) :
    rest = cs.dropWhile fun c => (digitValue 10 c).isSome := by
  obtain ⟨⟨n, _⟩, hread, hpair⟩ := Option.map_eq_some_iff.1 h
  obtain ⟨-, rfl⟩ := Prod.mk.inj hpair
  simp only [readNumber] at hread
  split at hread
  · cases hread
  · exact (Prod.mk.inj (Option.some.inj hread)).2.symm

theorem readChar_of_head? {c : Char} (h : rest.head? ≠ some c) : readChar c rest = none := by
  cases rest with
  | nil => rfl
  | cons x cs => exact if_neg fun hx => h (congrArg some hx)

theorem readOctet_repr (b : UInt8) (hrest : Stops 10 rest) :
    readOctet (b.toNat.repr.toList ++ rest) = some (b, rest) := by
  have hlength : (some 3).all ((Nat.toDigits 10 b.toNat).length ≤ ·) = true := by
    have hb := b.toNat_lt
    simp [Nat.length_toDigits_le_iff]
    omega
  rw [readOctet, Nat.toList_repr, readNumber_toDigits (by decide) (by decide) b.toNat_lt hlength
    hrest]
  simp

theorem stops_dot (radix : Nat) (cs : List Char) : Stops radix ('.' :: cs) := by
  rintro _ ⟨rfl⟩
  rfl

theorem readV4_text (a b c d : UInt8) (hrest : Stops 10 rest) :
    readV4 ((v4Text [a, b, c, d]).toList ++ rest) = some ((a, b, c, d), rest) := by
  have hdot := stops_dot 10
  simp only [v4Text, List.map_cons, List.map_nil, toList_join_cons, toList_join_singleton,
    List.append_assoc, List.cons_append, readV4]
  rw [readOctet_repr a (hdot _)]
  simp only [Option.bind_eq_bind, Option.bind_some, readChar, if_true]
  rw [readOctet_repr b (hdot _)]
  simp only [Option.bind_some, if_true]
  rw [readOctet_repr c (hdot _)]
  simp only [Option.bind_some, if_true]
  rw [readOctet_repr d hrest]
  rfl

end Version4

section Version6

variable {rest : List Char}

def Ends (rest : List Char) : Prop := ∀ c, rest.head? = some c → c = ':'

theorem Ends.stops (h : Ends rest) (radix : Nat) : Stops radix rest := by
  intro c hc
  rw [h c hc]
  rfl

theorem ends_nil : Ends [] := by simp [Ends]

theorem ends_colon (cs : List Char) : Ends (':' :: cs) := by
  rintro _ ⟨rfl⟩
  rfl

theorem readV4_of_ends (h : Ends rest) : readV4 rest = none := by
  have hoctet : readOctet rest = none := by
    rw [readOctet, readNumber, (h.stops 10).takeWhile]
    rfl
  rw [readV4, hoctet]
  rfl

theorem readNumber_of_ends (h : Ends rest) {bound : Nat} {maxDigits : Option Nat}
    {zeroFirst : Bool} : readNumber 16 bound maxDigits zeroFirst rest = none := by
  simp only [readNumber, (h.stops 16).takeWhile]
  rfl

def groupText (g : UInt16) : List Char := Nat.toDigits 16 g.toNat

theorem readNumber_group (g : UInt16) (h : Ends rest) :
    readNumber 16 65536 (some 4) true (groupText g ++ rest) = some (g.toNat, rest) := by
  refine readNumber_toDigits (by decide) (by decide) g.toNat_lt ?_ (h.stops 16)
  have hg := g.toNat_lt
  simp [Nat.length_toDigits_le_iff]
  omega

theorem readV4_group (g : UInt16) (h : Ends rest) : readV4 (groupText g ++ rest) = none := by
  have hdigits := (digits_toDigits (by decide : 1 < 16) (by decide) g.toNat).1
  have hdot : ((groupText g ++ rest).dropWhile fun c => (digitValue 10 c).isSome).head? ≠
      some '.' := by
    rw [List.dropWhile_append]
    cases hcs : (groupText g).dropWhile fun c => (digitValue 10 c).isSome with
    | nil =>
      simp only [List.isEmpty_nil, if_true, (h.stops 10).dropWhile]
      exact fun hhead => absurd (h _ hhead) (by decide)
    | cons c cs =>
      rintro ⟨rfl⟩
      have hmem : '.' ∈ groupText g := (List.dropWhile_suffix _).subset (hcs ▸ List.mem_cons_self)
      exact absurd (hdigits _ hmem) (by decide)
  rw [readV4]
  cases hread : readOctet (groupText g ++ rest) with
  | none => rfl
  | some read =>
    obtain ⟨o, cs⟩ := read
    rw [← readOctet_rest hread] at hdot
    simp only [Option.bind_eq_bind, Option.bind_some, readChar_of_head? hdot, Option.bind_none]

def groupsText (groups : List UInt16) : List Char := groups.flatMap fun g => ':' :: groupText g

@[simp] theorem groupsText_cons (g : UInt16) (groups : List UInt16) :
    groupsText (g :: groups) = ':' :: (groupText g ++ groupsText groups) := rfl

theorem toList_hexText (g : UInt16) (groups : List UInt16) :
    (hexText (g :: groups)).toList = groupText g ++ groupsText groups := by
  induction groups generalizing g with
  | nil => simp [hexText, groupText, groupsText]
  | cons next groups ih =>
    have hnext := ih next
    rw [hexText] at hnext ⊢
    simp only [List.map_cons, toList_join_cons] at hnext ⊢
    rw [hnext, String.toList_ofList, groupsText_cons]
    rfl

/-- Behind the last group of a row: two colons or the end. -/
def Gap (rest : List Char) : Prop := rest = [] ∨ ∃ cs, rest = ':' :: ':' :: cs

theorem Gap.ends (h : Gap rest) : Ends rest := by
  rcases h with rfl | ⟨cs, rfl⟩
  · exact ends_nil
  · exact ends_colon _

theorem Gap.separated (h : Gap rest) {α : Type} {read : Reader α}
    (hread : ∀ cs, Ends cs → read cs = none) (first : Bool) : separated first read rest = none := by
  cases first with
  | true => exact hread rest h.ends
  | false =>
    rcases h with rfl | ⟨cs, rfl⟩
    · rfl
    · exact hread (':' :: cs) (ends_colon cs)

theorem readGroups_gap (h : Gap rest) (left : Nat) (first : Bool) :
    readGroups left first rest = ([], false, rest) := by
  cases left with
  | zero => rfl
  | succ left =>
    have hv4 := h.separated (fun _ => readV4_of_ends) first
    have hnumber := h.separated (fun _ hcs => @readNumber_of_ends _ hcs 65536 (some 4) true) first
    simp only [readGroups, hv4, hnumber, ite_self]

theorem readGroups_cons (left : Nat) (g : UInt16) (h : Ends rest) (first : Bool) :
    readGroups (left + 1) first ((if first then [] else [':']) ++ (groupText g ++ rest)) =
      (g :: (readGroups left false rest).1, (readGroups left false rest).2) := by
  have hseparated {α : Type} (read : Reader α) :
      separated first read ((if first then [] else [':']) ++ (groupText g ++ rest)) =
        read (groupText g ++ rest) := by
    cases first <;> rfl
  simp only [readGroups, hseparated, readV4_group g h, readNumber_group g h, ite_self]
  simp

theorem ends_groupsText (groups : List UInt16) (h : Gap rest) :
    Ends (groupsText groups ++ rest) := by
  cases groups with
  | nil => exact h.ends
  | cons g groups => exact ends_colon _

theorem readGroups_groupsText {left : Nat} {groups : List UInt16} (hleft : groups.length ≤ left)
    (h : Gap rest) :
    readGroups left false (groupsText groups ++ rest) = (groups, false, rest) := by
  induction groups generalizing left with
  | nil => exact readGroups_gap h left false
  | cons g groups ih =>
    obtain ⟨left, rfl⟩ := Nat.exists_eq_add_of_le' (Nat.le_trans (Nat.le_add_left 1 _) hleft)
    have hnext := ih (Nat.le_of_succ_le_succ hleft)
    have hcons := readGroups_cons left g (ends_groupsText groups h) false
    rw [hnext] at hcons
    rw [groupsText_cons, List.cons_append, List.append_assoc]
    exact hcons

theorem readGroups_hexText {left : Nat} {groups : List UInt16} (hleft : groups.length ≤ left)
    (h : Gap rest) :
    readGroups left true ((hexText groups).toList ++ rest) = (groups, false, rest) := by
  cases groups with
  | nil => exact readGroups_gap h left true
  | cons g groups =>
    obtain ⟨left, rfl⟩ := Nat.exists_eq_add_of_le' (Nat.le_trans (Nat.le_add_left 1 _) hleft)
    have hcons := readGroups_cons left g (ends_groupsText groups h) true
    rw [readGroups_groupsText (Nat.le_of_succ_le_succ hleft) h] at hcons
    rw [toList_hexText, List.append_assoc]
    exact hcons

theorem readV4_hexText (groups : List UInt16) (h : Gap rest) :
    readV4 ((hexText groups).toList ++ rest) = none := by
  cases groups with
  | nil => exact readV4_of_ends h.ends
  | cons g groups =>
    rw [toList_hexText, List.append_assoc]
    exact readV4_group g (ends_groupsText groups h)

/-- The run that is left out is one of zeros, and lies within the groups. -/
theorem longestZeros_spec (groups : List UInt16) :
    (longestZeros groups).1 + (longestZeros groups).2 ≤ groups.length ∧
      (groups.drop (longestZeros groups).1).take (longestZeros groups).2 =
        List.replicate (longestZeros groups).2 0 := by
  have hrun (start : Nat) : (groups.drop start).take
      ((groups.drop start).takeWhile (· == 0)).length =
        List.replicate ((groups.drop start).takeWhile (· == 0)).length 0 := by
    rw [← List.prefix_iff_eq_take.1 (List.takeWhile_prefix _), List.eq_replicate_iff]
    exact ⟨rfl, fun g hg => by simpa using List.mem_takeWhile_imp hg⟩
  unfold longestZeros
  refine List.foldlRecOn (motive := fun best : Nat × Nat => best.1 + best.2 ≤ groups.length ∧
    (groups.drop best.1).take best.2 = List.replicate best.2 0) _ _ (by simp) ?_
  intro best hbest start hstart
  simp only
  split
  · refine ⟨?_, hrun start⟩
    have hle := (List.takeWhile_prefix (· == 0) (l := groups.drop start)).length_le
    rw [List.length_drop] at hle
    have hlt := List.mem_range.1 hstart
    omega
  · exact hbest

@[simp] theorem ofGroups?_toList (groups : Vector UInt16 8) :
    ofGroups? groups.toList = some (.v6 groups) := by
  obtain ⟨array, hsize⟩ := groups
  have hsame : array.toList.toArray = array := Array.toArray_toList
  simp [ofGroups?, hsame, hsize]

/-- With a run of zeros left out. -/
theorem readV6_gap {groups : Vector UInt16 8} {front back : List UInt16} {length : Nat}
    (hlength : 1 < length) (hgroups : groups.toList = front ++ List.replicate length 0 ++ back) :
    readV6 ((hexText front).toList ++ ':' :: ':' :: (hexText back).toList) =
      some (.v6 groups, []) := by
  have hcount := congrArg List.length hgroups
  simp only [List.length_append, List.length_replicate, Vector.length_toList] at hcount
  have hfront := readGroups_hexText (by omega : front.length ≤ 8)
    (.inr ⟨(hexText back).toList, rfl⟩)
  have hback := readGroups_hexText (by omega : back.length ≤ 7 - front.length) (.inl rfl)
  rw [List.append_nil] at hback
  have hzeros : 8 - front.length - back.length = length := by omega
  rw [readV6, hfront]
  simp only [if_neg (by omega : ¬ front.length = 8)]
  simp only [readChar, if_true, Option.bind_eq_bind, Option.bind_some, hback, hzeros, ← hgroups,
    ofGroups?_toList]
  rfl

theorem readV6_full (groups : Vector UInt16 8) :
    readV6 (hexText groups.toList).toList = some (.v6 groups, []) := by
  have hread := readGroups_hexText (by simp : groups.toList.length ≤ 8) (.inl rfl)
  rw [List.append_nil] at hread
  rw [readV6, hread]
  simp

theorem pairOctets_split (g : UInt16) : pairOctets (g >>> 8).toUInt8 g.toUInt8 = g := by
  apply UInt16.toNat_inj.1
  have hg := g.toNat_lt
  simp [pairOctets, Nat.shiftRight_eq_div_pow]
  omega

@[simp] theorem separated_colon {α : Type} (read : Reader α) (cs : List Char) :
    separated false read (':' :: cs) = read cs := rfl

theorem readV6_mapped {groups : Vector UInt16 8} {hi lo : UInt16} {cs : List Char}
    (hgroups : groups.toList = [0, 0, 0, 0, 0, 0xffff, hi, lo])
    (hcs : readV4 cs =
      some (((hi >>> 8).toUInt8, hi.toUInt8, (lo >>> 8).toUInt8, lo.toUInt8), [])) :
    readV6 (':' :: ':' :: (groupText 0xffff ++ ':' :: cs)) = some (.v6 groups, []) := by
  have hlast : readGroups 6 false (':' :: cs) = ([hi, lo], true, []) := by
    rw [readGroups, if_pos (by decide : 1 ≤ 5), separated_colon, hcs]
    simp only [pairOctets_split]
  have hback := readGroups_cons 6 0xffff (ends_colon cs) true
  rw [hlast] at hback
  simp only [if_true, List.nil_append] at hback
  rw [readV6, readGroups_gap (.inr ⟨_, rfl⟩)]
  simp only [List.length_nil, Nat.reduceEqDiff, if_false, Bool.false_eq_true, readChar, if_true,
    Option.bind_eq_bind, Option.bind_some, Nat.reduceSub, hback]
  have hall : [] ++ List.replicate (8 - [0xffff, hi, lo].length) 0 ++ [0xffff, hi, lo] =
      groups.toList := hgroups.symm
  rw [hall, ofGroups?_toList]
  rfl

theorem readV6_text (groups : Vector UInt16 8) :
    readV6 (v6Text groups.toList).toList = some (.v6 groups, []) := by
  have hspec := longestZeros_spec groups.toList
  unfold v6Text
  split
  · next hi lo hgroups =>
    have hread := readV4_text (hi >>> 8).toUInt8 hi.toUInt8 (lo >>> 8).toUInt8 lo.toUInt8
      (ends_nil.stops 10)
    rw [List.append_nil] at hread
    rw [String.toList_append]
    exact readV6_mapped hgroups hread
  · generalize longestZeros groups.toList = run at hspec ⊢
    obtain ⟨start, length⟩ := run
    simp only
    split
    · next hlength =>
      obtain ⟨hle, hzeros⟩ := hspec
      simp only [String.toList_append, List.append_assoc]
      refine readV6_gap hlength ?_
      simp only at hzeros
      rw [← hzeros, ← List.drop_drop, List.append_assoc, List.take_append_drop,
        List.take_append_drop]
    · exact readV6_full groups

theorem readV4_v6Text (groups : List UInt16) : readV4 (v6Text groups).toList = none := by
  unfold v6Text
  split
  · rw [String.toList_append]
    exact readV4_of_ends (ends_colon _)
  · simp only
    split
    · rw [String.toList_append, String.toList_append, List.append_assoc]
      exact readV4_hexText _ (.inr ⟨_, rfl⟩)
    · have hnone := readV4_hexText groups (.inl rfl)
      rwa [List.append_nil] at hnone

end Version6

/-- An address is read back from its text. -/
theorem ofText?_text (ip : Ip) : ofText? ip.text = some ip := by
  cases ip with
  | v4 a b c d =>
    have hread := readV4_text a b c d (ends_nil.stops 10)
    rw [List.append_nil] at hread
    unfold ofText?
    rw [text, hread]
    rfl
  | v6 groups =>
    unfold ofText?
    rw [text, readV4_v6Text, readV6_text]
    rfl

section Spelling

variable {α : Type} {cs mid rest : List Char} {m n : Nat}

/-- What addresses are spelled with. -/
def Legible (c : Char) : Prop := (Text.Hex.digit? c).isSome = true ∨ c = ':' ∨ c = '.'

def Spends (n : Nat) (cs rest : List Char) : Prop :=
  ∃ used, cs = used ++ rest ∧ used.length ≤ n ∧ ∀ c ∈ used, Legible c

theorem Spends.none (n : Nat) (cs : List Char) : Spends n cs cs := ⟨[], rfl, by simp, by simp⟩

theorem Spends.trans (h : Spends m cs mid) (hrest : Spends n mid rest) :
    Spends (m + n) cs rest := by
  obtain ⟨front, rfl, hfront, hlegible⟩ := h
  obtain ⟨back, rfl, hback, hmore⟩ := hrest
  refine ⟨front ++ back, (List.append_assoc ..).symm, ?_, ?_⟩
  · rw [List.length_append]
    omega
  · intro c hc
    exact (List.mem_append.1 hc).elim (hlegible c) (hmore c)

theorem Spends.le (h : Spends m cs rest) (hle : m ≤ n) : Spends n cs rest := by
  obtain ⟨used, hcs, hlength, hlegible⟩ := h
  exact ⟨used, hcs, hlength.trans hle, hlegible⟩

def Brief (n : Nat) (read : Reader α) : Prop := ∀ cs x rest, read cs = some (x, rest) →
  Spends n cs rest

theorem brief_readNumber (radix bound n : Nat) (zeroFirst : Bool) :
    Brief n (readNumber radix bound (some n) zeroFirst) := by
  intro cs value rest h
  simp only [readNumber] at h
  split at h
  · cases h
  · next hfits =>
    simp only [Bool.or_eq_true, not_or] at hfits
    obtain ⟨-, rfl⟩ := Prod.mk.inj (Option.some.inj h)
    refine ⟨_, (List.takeWhile_append_dropWhile ..).symm, by simpa using hfits.1.1.2, ?_⟩
    intro c hc
    have hdigit := List.mem_takeWhile_imp hc
    simp only [digitValue] at hdigit
    exact .inl (Option.isSome_of_isSome_filter _ _ hdigit)

theorem brief_readChar {c : Char} (hc : Legible c) : Brief 1 (readChar c) := by
  intro cs value rest h
  cases cs with
  | nil => cases h
  | cons x cs =>
    simp only [readChar] at h
    split at h
    · next hx =>
      obtain ⟨-, rfl⟩ := Prod.mk.inj (Option.some.inj h)
      exact ⟨[x], rfl, le_refl _, by simpa [hx] using hc⟩
    · cases h

theorem Brief.bind {β : Type} {read : Reader α} {next : α → Reader β} (h : Brief m read)
    (hnext : ∀ x, Brief n (next x)) :
    Brief (m + n) fun cs => (read cs).bind fun x => next x.1 x.2 := by
  intro cs y rest hboth
  obtain ⟨⟨x, mid⟩, hread, hrest⟩ := Option.bind_eq_some_iff.1 hboth
  exact (h cs x mid hread).trans (hnext x mid y rest hrest)

theorem brief_pure (x : α) : Brief 0 fun cs => some (x, cs) := by
  intro cs y rest h
  obtain ⟨-, rfl⟩ := Prod.mk.inj (Option.some.inj h)
  exact .none 0 cs

theorem brief_readOctet : Brief 3 readOctet := by
  intro cs x rest h
  obtain ⟨⟨value, _⟩, hread, hpair⟩ := Option.map_eq_some_iff.1 h
  obtain ⟨-, rfl⟩ := Prod.mk.inj hpair
  exact brief_readNumber 10 256 3 false cs value _ hread

theorem brief_readV4 : Brief 15 readV4 := by
  have hdot : Brief 1 (readChar '.') := brief_readChar (.inr (.inr rfl))
  exact brief_readOctet.bind fun a => hdot.bind fun _ => brief_readOctet.bind fun b =>
    hdot.bind fun _ => brief_readOctet.bind fun c => hdot.bind fun _ =>
      brief_readOctet.bind fun d => brief_pure (a, b, c, d)

theorem Brief.separated {read : Reader α} (h : Brief n read) (first : Bool) :
    Brief (n + 1) (separated first read) := by
  cases first with
  | true => exact fun cs x rest hread => (h cs x rest hread).le (Nat.le_succ n)
  | false =>
    have hcolon : Brief 1 (readChar ':') := brief_readChar (.inr (.inl rfl))
    intro cs x rest hread
    exact (hcolon.bind (fun _ => h) cs x rest hread).le (by omega)

theorem spends_readGroups (left : Nat) (first : Bool) (cs : List Char) :
    Spends (5 * left + 16) cs (readGroups left first cs).2.2 := by
  induction left generalizing first cs with
  | zero => exact .none _ cs
  | succ left ih =>
    rw [readGroups]
    split
    · next a b c d rest hv4 =>
      split at hv4
      · exact (brief_readV4.separated first cs _ rest hv4).le (by omega)
      · cases hv4
    · split
      · exact .none _ cs
      · next g rest hnumber =>
        have hgroup := (brief_readNumber 16 65536 4 true).separated first cs g rest hnumber
        exact (hgroup.trans (ih false rest)).le (by omega)

theorem brief_readV6 : Brief 109 readV6 := by
  intro cs ip rest h
  have hcolon : Brief 1 (readChar ':') := brief_readChar (.inr (.inl rfl))
  have hfront := spends_readGroups 8 true cs
  rw [readV6] at h
  split at h
  next front embedded after hread =>
  rw [hread] at hfront
  split at h
  · obtain ⟨whole, -, hpair⟩ := Option.bind_eq_some_iff.1 h
    obtain ⟨-, rfl⟩ := Prod.mk.inj (Option.some.inj hpair)
    exact hfront.le (by omega)
  · split at h
    · cases h
    · obtain ⟨⟨_, one⟩, hone, h⟩ := Option.bind_eq_some_iff.1 h
      obtain ⟨⟨_, two⟩, htwo, h⟩ := Option.bind_eq_some_iff.1 h
      obtain ⟨whole, -, hpair⟩ := Option.bind_eq_some_iff.1 h
      obtain ⟨-, rfl⟩ := Prod.mk.inj (Option.some.inj hpair)
      have hcolons := (hcolon after _ one hone).trans (hcolon one _ two htwo)
      have hback := spends_readGroups (7 - front.length) true two
      exact ((hfront.trans hcolons).trans hback).le (by omega)

/-- Whatever an address is read from is short, and legible. -/
theorem spelling_of_ofText? {s : String} {ip : Ip} (h : ofText? s = some ip) :
    s.toList.length ≤ 109 ∧ ∀ c ∈ s.toList, Legible c := by
  have hspends : Spends 109 s.toList [] := by
    unfold ofText? at h
    cases hv4 : readV4 s.toList with
    | some read =>
      obtain ⟨⟨a, b, c, d⟩, rest⟩ := read
      rw [hv4] at h
      cases rest with
      | nil => exact (brief_readV4 _ _ _ hv4).le (by decide)
      | cons => cases h
    | none =>
      rw [hv4] at h
      cases hv6 : readV6 s.toList with
      | none => simp [hv6] at h
      | some read =>
        obtain ⟨ip, rest⟩ := read
        cases rest with
        | nil => exact brief_readV6 _ _ _ hv6
        | cons => simp [hv6] at h
  obtain ⟨used, hs, hlength, hlegible⟩ := hspends
  rw [hs, List.append_nil]
  exact ⟨hlength, hlegible⟩

end Spelling

end CrawlCluster.Net.Ip
