import DiceDuel.Proofs.Binary64.Representable
import DiceDuel.Random.Choice

/-!
# Weighted choice

A table of weights is refused for the first of its faults, and a refused table costs no draw. An
accepted table has a live entry, one whose weight is above zero, since weights that are all zero add
up to zero without rounding. Nothing is assumed of the other sums: the running sum decides only
which live entry is chosen, and if it never passes the draw the last live entry is. So what is
chosen is live whatever the draw is and however the sums are rounded. How often an entry is chosen
is not said here.
-/

namespace DiceDuel

namespace Binary64

/-- A number that can be a weight: it is finite and not below zero. -/
def IsWeight (x : Binary64) : Prop := x.isFinite = true ∧ x.lt 0 = false

/-! ## Zeros -/

/-- The number zero has no sign. -/
theorem ofNat_zero : (0 : Binary64) = zero false := by decide +kernel

/-- Each of the two zeros compares as not above zero. -/
theorem zero_le_zero (negative : Bool) : (zero negative).le 0 = true := by
  rw [ofNat_zero]
  cases negative <;> rfl

/-- Zeros add up to a zero. -/
theorem zero_add_zero (s t : Bool) : zero s + zero t = zero (s && t) := by
  change add (.finite s 0 _) (.finite t 0 _) = _
  rw [add, signedUnits_zero, signedUnits_zero]
  rfl

/-- A weight that is not above zero is a zero. -/
theorem IsWeight.exists_eq_zero {x : Binary64} (hx : x.IsWeight)
    (hlow : (0 : Binary64).lt x = false) : ∃ negative, x = zero negative := by
  obtain ⟨hfinite, hhigh⟩ := hx
  cases x with
  | nan => cases hfinite
  | infinite negative => cases hfinite
  | finite negative units fits =>
    rw [ofNat_zero] at hlow hhigh
    have hnone : signedUnits negative units = 0 := by
      simp only [lt, compare?, zero, signedUnits_zero, Option.some_beq_some, beq_eq_false_iff_ne,
        ne_eq, compare_lt_iff_lt, not_lt] at hlow hhigh
      omega
    have hunits : units = 0 := by
      rw [← natAbs_signedUnits negative units, hnone]
      rfl
    subst hunits
    exact ⟨negative, rfl⟩

end Binary64

namespace Share

variable {weights : List Binary64}

/-! ## The check of a table -/

/-- The first number of a list that cannot be a weight. -/
structure FirstBad (weights : List Binary64) (index : Nat) (weight : Binary64) : Prop where
  /-- It stands at the index. -/
  here : weights[index]? = some weight
  /-- It cannot be a weight. -/
  bad : ¬weight.IsWeight
  /-- Whatever stands before it can. -/
  before : ∀ place < index, ∀ other ∈ weights[place]?, other.IsWeight

/-- What a table of weights is answered with. The checks come in this order: the number of weights,
the first that is none, the total. -/
inductive Judged (weights : List Binary64) : Except WeightFault (List Share) → Prop
  /-- There are fewer than two. -/
  | tooFew (few : weights.length < 2) : Judged weights (.error (.tooFew weights.length))
  /-- The first that cannot be a weight is not finite. -/
  | notFinite {index : Nat} {weight : Binary64} (enough : 2 ≤ weights.length)
      (first : FirstBad weights index weight) (infinite : weight.isFinite = false) :
      Judged weights (.error (.notFinite index))
  /-- The first that cannot be a weight is finite and below zero. -/
  | negative {index : Nat} {weight : Binary64} (enough : 2 ≤ weights.length)
      (first : FirstBad weights index weight) (finite : weight.isFinite = true) :
      Judged weights (.error (.negative index weight))
  /-- All can be weights, and their total is not above zero. -/
  | zeroTotal (enough : 2 ≤ weights.length) (good : ∀ weight ∈ weights, weight.IsWeight)
      (nothing : (total weights).le 0 = true) : Judged weights (.error .zeroTotal)
  /-- The table is accepted: each weight has its share, with its index and as it was given. -/
  | accepted {shares : List Share} (enough : 2 ≤ weights.length)
      (good : ∀ weight ∈ weights, weight.IsWeight) (something : (total weights).le 0 = false)
      (entries : ∀ index : Nat, shares[index]? =
        weights[index]?.map fun weight => ⟨index, weight, weight / total weights⟩) :
      Judged weights (.ok shares)

/-- The fault of a number that cannot be a weight. -/
def faultAt (index : Nat) (weight : Binary64) : WeightFault :=
  if weight.isFinite then .negative index weight else .notFinite index

/-- A weight is passed over. -/
theorem firstFault?_cons_of_isWeight {weight : Binary64} (hweight : weight.IsWeight)
    (start : Nat) (rest : List Binary64) :
    firstFault? start (weight :: rest) = firstFault? (start + 1) rest := by
  simp [firstFault?, hweight.1, hweight.2]

/-- What cannot be a weight is a fault. -/
theorem firstFault?_cons_of_not_isWeight {weight : Binary64} (hweight : ¬weight.IsWeight)
    (start : Nat) (rest : List Binary64) :
    firstFault? start (weight :: rest) = some (faultAt start weight) := by
  cases hfinite : weight.isFinite with
  | false => simp [firstFault?, faultAt, hfinite]
  | true =>
    have hbelow : weight.lt 0 = true := by
      simpa [Binary64.IsWeight, hfinite] using hweight
    simp [firstFault?, faultAt, hfinite, hbelow]

/-- There is no fault if all numbers can be weights. -/
theorem firstFault?_eq_none {start : Nat} (hgood : ∀ weight ∈ weights, weight.IsWeight) :
    firstFault? start weights = none := by
  induction weights generalizing start with
  | nil => rfl
  | cons weight rest ih =>
    rw [List.forall_mem_cons] at hgood
    rw [firstFault?_cons_of_isWeight hgood.1]
    exact ih hgood.2

/-- Behind a weight the first number that cannot be one stays the first. -/
theorem firstBad_cons_succ_iff {first weight : Binary64} {rest : List Binary64} {index : Nat} :
    FirstBad (first :: rest) (index + 1) weight ↔ first.IsWeight ∧ FirstBad rest index weight := by
  constructor
  · rintro ⟨here, bad, before⟩
    rw [Nat.forall_lt_succ_left] at before
    exact ⟨before.1 first rfl, by simpa using here, bad, by simpa using before.2⟩
  · rintro ⟨hfirst, here, bad, before⟩
    refine ⟨by simpa using here, bad, ?_⟩
    rw [Nat.forall_lt_succ_left]
    exact ⟨by simpa using hfirst, by simpa using before⟩

/-- The first number that cannot be a weight is the first fault. -/
theorem FirstBad.firstFault?_eq {index : Nat} {weight : Binary64} {start : Nat}
    (h : FirstBad weights index weight) :
    firstFault? start weights = some (faultAt (start + index) weight) := by
  induction weights generalizing start index with
  | nil => exact absurd h.here (by simp)
  | cons first rest ih =>
    cases index with
    | zero =>
      obtain rfl : first = weight := by simpa using h.here
      exact firstFault?_cons_of_not_isWeight h.bad start rest
    | succ index =>
      obtain ⟨hfirst, hrest⟩ := firstBad_cons_succ_iff.mp h
      rw [firstFault?_cons_of_isWeight hfirst, ih hrest, Nat.add_right_comm, Nat.add_assoc]

/-- If not all numbers can be weights there is a first that cannot. -/
theorem exists_firstBad (hbad : ¬∀ weight ∈ weights, weight.IsWeight) :
    ∃ index weight, FirstBad weights index weight := by
  induction weights with
  | nil => exact absurd (by simp) hbad
  | cons first rest ih =>
    by_cases hfirst : first.IsWeight
    · obtain ⟨index, weight, hrest⟩ := ih fun hgood =>
        hbad (List.forall_mem_cons.mpr ⟨hfirst, hgood⟩)
      exact ⟨index + 1, weight, firstBad_cons_succ_iff.mpr ⟨hfirst, hrest⟩⟩
    · exact ⟨0, first, rfl, hfirst, by simp⟩

/-- The check gives what the table is judged as. -/
theorem Judged.ofWeights_eq {result : Except WeightFault (List Share)}
    (h : Judged weights result) : ofWeights weights = result := by
  unfold ofWeights
  cases h with
  | tooFew few => rw [if_pos few]
  | notFinite enough first infinite =>
    rw [if_neg (Nat.not_lt.mpr enough), first.firstFault?_eq]
    simp [faultAt, infinite]
  | negative enough first finite =>
    rw [if_neg (Nat.not_lt.mpr enough), first.firstFault?_eq]
    simp [faultAt, finite]
  | zeroTotal enough good nothing =>
    rw [if_neg (Nat.not_lt.mpr enough), firstFault?_eq_none good]
    simp [nothing]
  | @accepted shares enough good something entries =>
    have hshares : (weights.mapIdx fun index weight =>
        (⟨index, weight, weight / total weights⟩ : Share)) = shares := by
      refine List.ext_getElem? fun index => ?_
      rw [List.getElem?_mapIdx, entries index]
    rw [if_neg (Nat.not_lt.mpr enough), firstFault?_eq_none good]
    simp [something, hshares]

/-- Every table is judged somehow. -/
theorem exists_judged (weights : List Binary64) : ∃ result, Judged weights result := by
  rcases Nat.lt_or_ge weights.length 2 with few | enough
  · exact ⟨_, .tooFew few⟩
  · by_cases good : ∀ weight ∈ weights, weight.IsWeight
    · cases htotal : (total weights).le 0 with
      | true => exact ⟨_, .zeroTotal enough good htotal⟩
      | false =>
        exact ⟨.ok (weights.mapIdx fun index weight => ⟨index, weight, weight / total weights⟩),
          .accepted enough good htotal fun index => List.getElem?_mapIdx⟩
    · obtain ⟨index, weight, first⟩ := exists_firstBad good
      cases hfinite : weight.isFinite with
      | true => exact ⟨_, .negative enough first hfinite⟩
      | false => exact ⟨_, .notFinite enough first hfinite⟩

/-- A table is answered with what it is judged as. -/
theorem ofWeights_eq_iff_judged {result : Except WeightFault (List Share)} :
    ofWeights weights = result ↔ Judged weights result := by
  constructor
  · rintro rfl
    obtain ⟨result, h⟩ := exists_judged weights
    rw [h.ofWeights_eq]
    exact h
  · exact Judged.ofWeights_eq

/-! ## The total of a table -/

/-- Zeros have a total of zero. -/
theorem exists_foldl_eq_zero (hzeros : ∀ weight ∈ weights, ∃ s, weight = Binary64.zero s)
    (negative : Bool) :
    ∃ s, weights.foldl (· + ·) (Binary64.zero negative) = Binary64.zero s := by
  induction weights generalizing negative with
  | nil => exact ⟨negative, rfl⟩
  | cons weight rest ih =>
    rw [List.forall_mem_cons] at hzeros
    obtain ⟨s, rfl⟩ := hzeros.1
    rw [List.foldl_cons, Binary64.zero_add_zero]
    exact ih hzeros.2 (negative && s)

/-- Weights whose total is above zero are not all zero. -/
theorem exists_live_weight (hgood : ∀ weight ∈ weights, weight.IsWeight)
    (htotal : (total weights).le 0 = false) :
    ∃ weight ∈ weights, (0 : Binary64).lt weight = true := by
  by_contra hnone
  have hzeros : ∀ weight ∈ weights, ∃ s, weight = Binary64.zero s := by
    intro weight hweight
    refine (hgood weight hweight).exists_eq_zero ?_
    exact Bool.eq_false_iff.mpr fun hlive => hnone ⟨weight, hweight, hlive⟩
  obtain ⟨s, hs⟩ := exists_foldl_eq_zero hzeros false
  rw [total, Binary64.ofNat_zero, hs, ← Binary64.ofNat_zero, Binary64.zero_le_zero] at htotal
  cases htotal

/-- An accepted share is that of a weight, and has its index. -/
theorem Judged.getElem?_index {shares : List Share} (h : Judged weights (.ok shares))
    {share : Share} (hshare : share ∈ shares) : weights[share.index]? = some share.weight := by
  cases h with
  | accepted enough good something entries =>
    obtain ⟨index, hindex⟩ := List.mem_iff_getElem?.mp hshare
    rw [entries, Option.map_eq_some_iff] at hindex
    obtain ⟨weight, hweight, rfl⟩ := hindex
    exact hweight

/-- An accepted table has a live share. -/
theorem Judged.exists_isLive {shares : List Share} (h : Judged weights (.ok shares)) :
    ∃ share ∈ shares, share.isLive = true := by
  cases h with
  | accepted enough good something entries =>
    obtain ⟨weight, hweight, hlive⟩ := exists_live_weight good something
    obtain ⟨index, hindex⟩ := List.mem_iff_getElem?.mp hweight
    have hshare := entries index
    rw [hindex, Option.map_some] at hshare
    exact ⟨_, List.mem_of_getElem? hshare, hlive⟩

/-! ## The choice -/

/-- At which entries the running sum of the shares passes a draw. -/
def passes (draw : Binary64) : Binary64 → List Share → List Bool
  | _, [] => []
  | sum, share :: rest =>
    draw.lt (sum + share.probability) :: passes draw (sum + share.probability) rest

/-- The choice, if the entries at which the draw is passed are given: the first live one of them, or
else the last live entry, or else the last one. -/
def chooseAt? (passed : List Bool) (shares : List Share) : Option Share :=
  (((passed.zip shares).find? fun entry => entry.1 && entry.2.isLive).map (·.2)).or
    ((shares.reverse.find? isLive).or shares.getLast?)

/-- The running sums count only as far as they pass the draw. -/
theorem reach?_eq_find? (draw sum : Binary64) (shares : List Share) :
    reach? draw sum shares = (((passes draw sum shares).zip shares).find? fun entry =>
      entry.1 && entry.2.isLive).map (·.2) := by
  induction shares generalizing sum with
  | nil => rfl
  | cons share rest ih =>
    rw [reach?, passes, List.zip_cons_cons, List.find?_cons]
    dsimp only
    cases hpassed : draw.lt (sum + share.probability) && share.isLive with
    | true => rfl
    | false => exact ih _

/-- A draw chooses by the entries at which it is passed. -/
theorem choose?_eq_chooseAt? (draw : Binary64) (shares : List Share) :
    choose? draw shares = chooseAt? (passes draw 0 shares) shares := by
  rw [choose?, chooseAt?, reach?_eq_find?]

/-- If there is a live entry a live one is chosen, at whichever entries the draw is passed. -/
theorem exists_chooseAt?_eq_some (passed : List Bool) {shares : List Share}
    (hlive : ∃ share ∈ shares, share.isLive = true) :
    ∃ share ∈ shares, chooseAt? passed shares = some share ∧ share.isLive = true := by
  unfold chooseAt?
  cases hfirst : (passed.zip shares).find? fun entry => entry.1 && entry.2.isLive with
  | some entry =>
    obtain ⟨flag, share⟩ := entry
    have hmem := (List.of_mem_zip (List.mem_of_find?_eq_some hfirst)).2
    have hfound := List.find?_some hfirst
    exact ⟨share, hmem, rfl, (Bool.and_eq_true_iff.mp hfound).2⟩
  | none =>
    -- no live entry passes the draw, and the search from behind finds the last live one
    cases hlast : shares.reverse.find? isLive with
    | some share =>
      have hmem : share ∈ shares := List.mem_reverse.mp (List.mem_of_find?_eq_some hlast)
      exact ⟨share, hmem, rfl, List.find?_some hlast⟩
    | none =>
      obtain ⟨share, hmem, hshare⟩ := hlive
      exact absurd hshare (List.find?_eq_none.mp hlast share (List.mem_reverse.mpr hmem))

end Share

namespace Generator

variable {κ : Type} {table : List (κ × Binary64)} {g : Generator}

/-- A refused table costs no draw. -/
theorem key_of_refused {fault : WeightFault}
    (hrefused : Share.ofWeights (table.map (·.2)) = .error fault) :
    g.key table = (.error fault, g) := by
  rw [key, hrefused]

/-- From an accepted table a key is drawn that has a live entry, and the draw is that of one
number. -/
theorem exists_key_of_accepted {shares : List Share}
    (haccepted : Share.ofWeights (table.map (·.2)) = .ok shares) :
    ∃ entry ∈ table, (0 : Binary64).lt entry.2 = true ∧ g.key table = (.ok entry.1, g.unit.2) := by
  have hjudged := Share.ofWeights_eq_iff_judged.mp haccepted
  obtain ⟨share, hshare, hchosen, hlive⟩ :=
    Share.exists_chooseAt?_eq_some (Share.passes g.unit.1 0 shares) hjudged.exists_isLive
  rw [← Share.choose?_eq_chooseAt?] at hchosen
  have hweight := hjudged.getElem?_index hshare
  rw [List.getElem?_map, Option.map_eq_some_iff] at hweight
  obtain ⟨entry, hentry, hsame⟩ := hweight
  refine ⟨entry, List.mem_of_getElem? hentry, ?_, ?_⟩
  · rw [hsame]
    exact hlive
  · rw [key, haccepted]
    simp only [making, hchosen, Option.bind_some, hentry]

/-- A weighted choice answers for every table and from every state of its generator. The check of a
table gives what the table is judged as, and nothing else: the first of its faults, or its shares. A
refused table is refused by the choice with the same fault and leaves the generator as it was. From
an accepted table one number is drawn, and the key that is chosen has a weight above zero: a live
entry is chosen whatever the draw is and at whichever entries the running sum passes it. -/
theorem key_judged {κ : Type} (table : List (κ × Binary64)) (g : Generator) :
    let weights := table.map (·.2)
    (∀ result, Share.ofWeights weights = result ↔ Share.Judged weights result) ∧
      (∀ fault, Share.ofWeights weights = .error fault → g.key table = (.error fault, g)) ∧
      ∀ shares, Share.ofWeights weights = .ok shares →
        (∀ draw, Share.choose? draw shares =
          Share.chooseAt? (Share.passes draw 0 shares) shares) ∧
        (∀ passed, ∃ share ∈ shares, Share.chooseAt? passed shares = some share ∧
          share.isLive = true) ∧
        ∃ entry ∈ table, (0 : Binary64).lt entry.2 = true ∧
          g.key table = (.ok entry.1, g.unit.2) := by
  intro weights
  refine ⟨fun result => Share.ofWeights_eq_iff_judged, fun fault => key_of_refused,
    fun shares haccepted => ⟨fun draw => Share.choose?_eq_chooseAt? draw shares,
      fun passed => ?_, exists_key_of_accepted haccepted⟩⟩
  exact Share.exists_chooseAt?_eq_some passed
    (Share.ofWeights_eq_iff_judged.mp haccepted).exists_isLive

/-- Weights whose total is infinite: every share is zero, so that no draw is ever passed, and the
last entry of the table is not live. -/
theorem key_judged_overflow :
    let most := Binary64.ofBits 0x7fefffffffffffff
    let table := [("sword", most), ("shield", most), ("potion", 0)]
    let g := Generator.ofSeed 5
    Share.ofWeights (table.map (·.2)) = .ok [⟨0, most, 0⟩, ⟨1, most, 0⟩, ⟨2, 0, 0⟩] ∧
      ∃ entry ∈ table, (0 : Binary64).lt entry.2 = true ∧
        g.key table = (.ok entry.1, g.unit.2) := by
  intro most table g
  have haccepted : Share.ofWeights (table.map (·.2)) =
      .ok [⟨0, most, 0⟩, ⟨1, most, 0⟩, ⟨2, 0, 0⟩] := by decide +kernel
  exact ⟨haccepted, ((key_judged table g).2.2 _ haccepted).2.2⟩

end Generator

end DiceDuel
