import ShadNet.Spec.SummonBroker

/-!
# The distance filter

A host is shown the signs near it. The filter works in 64 bits, and so it is right exactly as long
as the squares that it compares have 64 bits.

* `levelOperations_fit`: the level filter stays within 64 bits, whatever the levels.
* `distance_ok_iff`: when the distance filter is right.
* `far_sign_accepted`: a sign that is too far away and accepted.
-/

namespace ShadNet.SummonBroker

open Lib

variable {request sign : JsonObject}

/-- All filters of a search but the one for the distance. -/
def passesOthers (request sign : JsonObject) : Bool :=
  let requestWord := (request.value "SummonWord").toString
  let requestLevel := integer request "MatchingLevel" (-1)
  let signLevel := integer sign "MatchingLevel" (-1)
  !(decide (integer sign "UserId" (-1) = integer request "UserId" (-1)) ||
      decide (sessionIdOf sign = sessionIdOf request)) &&
    (sameIfPresent request sign "SummonDataVersion" && sameIfPresent request sign "SummonMethod") &&
    (sameIfPresent request sign "AreaId" && sameIfPresent request sign "AreaRegionId" &&
      sameIfPresent request sign "ChannelId") &&
    ((summonTypes request).isEmpty ||
      (summonTypes request).contains (wrap32 (integer sign "SummonType" 0))) &&
    (decide (requestWord = "") || decide (requestWord = (sign.value "SummonWord").toString)) &&
    (decide (requestWord ≠ "") || decide (requestLevel < 0) || decide (signLevel < 0) ||
      levelsMatch requestLevel signLevel)

/-- The request asks for signs within a distance. -/
structure HasDistance (request : JsonObject) : Prop where
  threshold : 0 ≤ integer request "DistanceThreshold" (-1)
  posX : request.contains "PosX" = true
  posY : request.contains "PosY" = true
  posZ : request.contains "PosZ" = true

theorem matchesSearch_eq (h : HasDistance request) (sign : JsonObject) :
    matchesSearch request sign false = (passesOthers request sign &&
      withinDistance request sign (integer request "DistanceThreshold" (-1))) := by
  have hthreshold : decide (integer request "DistanceThreshold" (-1) < 0) = false :=
    decide_eq_false (not_lt.mpr h.threshold)
  unfold matchesSearch passesOthers
  simp only [h.posX, h.posY, h.posZ, hthreshold, Bool.false_or, Bool.not_true]

/-- How far the two are apart along an axis. -/
def delta (request sign : JsonObject) (key : String) : ℤ :=
  integer request key 0 - integer sign key 0

/-- The square of the distance between the two. -/
def distanceSquared (request sign : JsonObject) : ℤ :=
  delta request sign "PosX" ^ 2 + delta request sign "PosY" ^ 2 + delta request sign "PosZ" ^ 2

/-! ## What is computed -/

/-- What the level filter computes, over the integers. -/
def levelOperations (requestLevel signLevel : ℤ) : List ℤ :=
  [requestLevel.tdiv 5, 10 + requestLevel.tdiv 5, requestLevel - signLevel,
    |requestLevel - signLevel|]

/-- What the distance filter computes, over the integers. -/
def distanceOperations (request sign : JsonObject) : List ℤ :=
  let deltaX := delta request sign "PosX"
  let deltaY := delta request sign "PosY"
  let deltaZ := delta request sign "PosZ"
  let distance := integer request "DistanceThreshold" (-1)
  [deltaX, deltaY, deltaZ, deltaX * deltaX, deltaY * deltaY, deltaZ * deltaZ,
    deltaX * deltaX + deltaY * deltaY, deltaX * deltaX + deltaY * deltaY + deltaZ * deltaZ,
    distance * distance]

/-- No operation overflows in the filters that are reached. -/
structure NoOverflow (request sign : JsonObject) : Prop where
  level : 0 ≤ integer request "MatchingLevel" (-1) → 0 ≤ integer sign "MatchingLevel" (-1) →
    ∀ x ∈ levelOperations (integer request "MatchingLevel" (-1)) (integer sign "MatchingLevel" (-1)),
      Fits64 x
  distance : passesOthers request sign = true → ∀ x ∈ distanceOperations request sign, Fits64 x

/-- **What the filter is for**: a sign that passes the others is accepted exactly when it is within
the distance, and nothing overflows on the way. -/
structure DistanceOk (request sign : JsonObject) : Prop where
  accepts : passesOthers request sign = true → (matchesSearch request sign false = true ↔
    distanceSquared request sign ≤ integer request "DistanceThreshold" (-1) ^ 2)
  noOverflow : NoOverflow request sign

/-- The squares that are compared are below `2^63`. -/
structure Near (request sign : JsonObject) : Prop where
  distance : distanceSquared request sign < 2 ^ 63
  threshold : integer request "DistanceThreshold" (-1) ≤ 3037000499

/-! ## Numbers of a document -/

theorem nearest_fits (n : ℚ) : Fits64 (JsonValue.nearest n) := by
  unfold JsonValue.nearest Fits64
  simp only
  generalize (if 0 ≤ n.num then _ else _ : ℤ) = m
  split
  · omega
  · split <;> omega

theorem integer_fits (object : JsonObject) (key : String) {fallback : ℤ} (h : Fits64 fallback) :
    Fits64 (integer object key fallback) := by
  unfold integer JsonValue.toLongLong?
  split
  · exact nearest_fits _
  · exact h

theorem levelOperations_fit {requestLevel signLevel : ℤ} (h : Fits64 requestLevel)
    (h' : Fits64 signLevel) (hrequest : 0 ≤ requestLevel) (hsign : 0 ≤ signLevel) :
    ∀ x ∈ levelOperations requestLevel signLevel, Fits64 x := by
  obtain ⟨-, hmax⟩ := h
  obtain ⟨-, hmax'⟩ := h'
  have hdiv : requestLevel.tdiv 5 = requestLevel / 5 := Int.tdiv_eq_ediv_of_nonneg hrequest
  unfold levelOperations Fits64
  simp only [hdiv, List.forall_mem_cons, List.not_mem_nil, false_imp_iff, implies_true, and_true]
  refine ⟨by omega, by omega, by omega, ?_⟩
  rcases abs_cases (requestLevel - signLevel) with ⟨habs, -⟩ | ⟨habs, -⟩ <;> rw [habs] <;> omega

/-! ## The filter -/

/-- Within 64 bits the filter compares the squares. -/
theorem withinDistance_eq (h : ∀ x ∈ distanceOperations request sign, Fits64 x) :
    withinDistance request sign (integer request "DistanceThreshold" (-1)) =
      decide (distanceSquared request sign ≤ integer request "DistanceThreshold" (-1) ^ 2) := by
  unfold distanceOperations at h
  simp only [List.forall_mem_cons, List.not_mem_nil, false_imp_iff, implies_true, and_true] at h
  obtain ⟨hx, hy, hz, hxx, hyy, hzz, hxy, hsum, hdd⟩ := h
  unfold delta at hx hy hz hxx hyy hzz hxy hsum
  unfold withinDistance distanceSquared delta
  simp only [wrap64_of_fits hx, wrap64_of_fits hy, wrap64_of_fits hz, wrap64_of_fits hxx,
    wrap64_of_fits hyy, wrap64_of_fits hzz, wrap64_of_fits hxy, wrap64_of_fits hsum,
    wrap64_of_fits hdd, sq]

theorem fits_mul_self {x : ℤ} (h : x * x < 2 ^ 63) : Fits64 (x * x) :=
  ⟨(by norm_num : (-2 ^ 63 : ℤ) ≤ 0).trans (mul_self_nonneg x), h⟩

/-- Nothing overflows exactly if the two are near each other. -/
theorem distanceOperations_fit (h : HasDistance request) (sign : JsonObject) :
    (∀ x ∈ distanceOperations request sign, Fits64 x) ↔ Near request sign := by
  have hthreshold := h.threshold
  unfold distanceOperations
  simp only [List.forall_mem_cons, List.not_mem_nil, false_imp_iff, implies_true, and_true]
  constructor
  · rintro ⟨-, -, -, -, -, -, -, hsum, hdd⟩
    refine ⟨?_, ?_⟩
    · unfold distanceSquared
      rw [sq, sq, sq]
      exact hsum.2
    · by_contra hfar
      have := hdd.2
      nlinarith
  · rintro ⟨hsum, hfar⟩
    unfold distanceSquared at hsum
    rw [sq, sq, sq] at hsum
    have hx := mul_self_nonneg (delta request sign "PosX")
    have hy := mul_self_nonneg (delta request sign "PosY")
    have hz := mul_self_nonneg (delta request sign "PosZ")
    -- each square is at most the sum
    have hxx : delta request sign "PosX" * delta request sign "PosX" < 2 ^ 63 := by linarith
    have hyy : delta request sign "PosY" * delta request sign "PosY" < 2 ^ 63 := by linarith
    have hzz : delta request sign "PosZ" * delta request sign "PosZ" < 2 ^ 63 := by linarith
    have hfits : ∀ {x : ℤ}, x * x < 2 ^ 63 → Fits64 x := by
      intro x hlt
      obtain ⟨hlow, hhigh⟩ := lt_of_mul_self_lt hlt
      exact ⟨by linarith, by linarith⟩
    refine ⟨hfits hxx, hfits hyy, hfits hzz, fits_mul_self hxx, fits_mul_self hyy,
      fits_mul_self hzz, ⟨by linarith, by linarith⟩, ⟨by linarith, hsum⟩, fits_mul_self ?_⟩
    nlinarith

/-- **The distance filter is right** exactly for signs that another filter refuses, or that are near:
the square of the distance and that of the threshold are below `2^63`. -/
theorem distance_ok_iff (h : HasDistance request) (sign : JsonObject) :
    DistanceOk request sign ↔ (passesOthers request sign = true → Near request sign) := by
  constructor
  · intro hok hpasses
    exact (distanceOperations_fit h sign).mp (hok.noOverflow.distance hpasses)
  · intro hnear
    have hfits : passesOthers request sign = true → ∀ x ∈ distanceOperations request sign, Fits64 x :=
      fun hpasses => (distanceOperations_fit h sign).mpr (hnear hpasses)
    have hfallback : Fits64 (-1) := ⟨by norm_num, by norm_num⟩
    refine ⟨fun hpasses => ?_, ⟨?_, hfits⟩⟩
    · rw [matchesSearch_eq h, hpasses, Bool.true_and, withinDistance_eq (hfits hpasses),
        decide_eq_true_iff]
    · exact levelOperations_fit (integer_fits _ _ hfallback) (integer_fits _ _ hfallback)

/-- A search within distance 1 at a place on the X axis. -/
def searchAt (posX : ℚ) : JsonObject :=
  [("DistanceThreshold", .num 1), ("PosX", .num posX), ("PosY", .num 0), ("PosZ", .num 0),
    ("SessionId", .str "host"), ("UserId", .num 2)]

/-- A sign at the origin. -/
def signAtOrigin : JsonObject :=
  [("PosX", .num 0), ("PosY", .num 0), ("PosZ", .num 0), ("SessionId", .str "guest"),
    ("UserId", .num 1)]

theorem searchAt_hasDistance (posX : ℚ) : HasDistance (searchAt posX) where
  threshold := by
    change 0 ≤ JsonValue.nearest 1
    decide
  posX := rfl
  posY := rfl
  posZ := rfl

/-- The square of `2^32` is 0 in 64 bits. -/
theorem far_sign_accepted : HasDistance (searchAt 4294967296) ∧
    passesOthers (searchAt 4294967296) signAtOrigin = true ∧
    matchesSearch (searchAt 4294967296) signAtOrigin false = true ∧
    ¬ DistanceOk (searchAt 4294967296) signAtOrigin := by
  have hpasses : passesOthers (searchAt 4294967296) signAtOrigin = true := by decide +kernel
  have hmatches : matchesSearch (searchAt 4294967296) signAtOrigin false = true := by decide +kernel
  refine ⟨searchAt_hasDistance _, hpasses, hmatches, fun hok => ?_⟩
  have hfar : ¬ distanceSquared (searchAt 4294967296) signAtOrigin ≤
      integer (searchAt 4294967296) "DistanceThreshold" (-1) ^ 2 := by decide +kernel
  exact hfar ((hok.accepts hpasses).mp hmatches)

theorem near_sign_ok : HasDistance (searchAt 1) ∧ DistanceOk (searchAt 1) signAtOrigin :=
  ⟨searchAt_hasDistance 1, (distance_ok_iff (searchAt_hasDistance 1) signAtOrigin).mpr fun _ =>
    ⟨by decide +kernel, by decide +kernel⟩⟩

end ShadNet.SummonBroker
