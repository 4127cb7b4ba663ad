import BeldexStorage.RateLimiter.Table
import Mathlib.Data.Nat.Defs

/-! # The unit tests of the rate limiter

`unit_test/rate_limiter.cpp` checks `RateLimiter` in six test cases, three for nodes and the
same three for clients.  A test case is modelled as its calls, in order, each with what its
check expects, and `passes` runs them on a new limiter of the model of §4.4.  The constants
`BUCKET_SIZE`, `TOKEN_RATE` and `MAX_CLIENTS` are not among the sources, so every result
holds for all their values, and for every starting instant `now`:

* `passes_emptyBucket_iff`: the two `empty bucket` tests pass exactly when `TOKEN_RATE`
  divides 1 000 000, since they wait `1'000'000ul / TOKEN_RATE` microseconds, rounded
  down, for one token to come back;
* `passes_steadyBucketFillup`: the two `steady bucket fillup` tests pass when, moreover or
  instead, a bucket's tokens beyond the first cover the rounding of their instants;
* `passes_multipleIdentifiers`: the two `multiple identifiers` tests pass;
* `passes_maxClientLimit`: the `max client limit` test fails.  It expects a new client at a
  full client table to be throttled, where §4.4 admits it (`shouldRateLimitClient_new`).
-/
namespace Beldex
namespace RateLimiterTest
open RateLimiter TokenBucket

/-- A test case: its calls, in order, each with what its check expects, `some true` for a
`CHECK` ("throttled"), `some false` for a `CHECK_FALSE`, and `none` for an unchecked call. -/
abbrev TestCase := List ((Request × Nat) × Option Bool)

/-- Whether the answers meet the checks. -/
def checks (answers : List Bool) (expected : List (Option Bool)) : Bool :=
  (answers.zip expected).all fun x => x.2.all (· == x.1)

variable (c : RateLimits)

/-- Whether every check of a test case holds when its calls run, in order, on a new
limiter. -/
def passes (calls : TestCase) : Bool :=
  checks ((RateLimiter.init c).run (calls.map Prod.fst)).1 (calls.map Prod.snd)

/-- The tests' `delta`, `1'000'000ul / RateLimiter::TOKEN_RATE` microseconds: the time a
token takes to come back, rounded down. -/
def tokenDelay : Nat := usPerSecond / c.tokenRate

/-- The `empty bucket` test cases: `BUCKET_SIZE` calls of `id` at `now`, all admitted; one
more, throttled; and one `delta` later, admitted again. -/
def emptyBucket (id : Request) (now : Nat) : TestCase :=
  List.replicate c.bucketSize ((id, now), some false) ++
    [((id, now), some true), ((id, now + tokenDelay c), some false)]

/-- The `steady bucket fillup` test cases: `BUCKET_SIZE * 10` calls of `id`, the `i`-th at
`now + i * 1'000'000ul / TOKEN_RATE` microseconds, all admitted. -/
def steadyBucketFillup (id : Request) (now : Nat) : TestCase :=
  (List.range (c.bucketSize * 10)).map fun i =>
    ((id, now + i * usPerSecond / c.tokenRate), some false)

/-- The `multiple identifiers` test cases: `id₁` takes every token at `now` and is then
throttled; `id₂`, at the same instant, is admitted. -/
def multipleIdentifiers (id₁ id₂ : Request) (now : Nat) : TestCase :=
  List.replicate c.bucketSize ((id₁, now), some false) ++
    [((id₁, now), some true), ((id₂, now), some false)]

/-- `rate limiter - mnode - empty bucket` (lines 12–28). -/
def mnodeEmptyBucket (identifier : LegacyPubkey) (now : Nat) : TestCase :=
  emptyBucket c (.mnode identifier) now

/-- `rate limiter - mnode - steady bucket fillup` (lines 30–42). -/
def mnodeSteadyBucketFillup (identifier : LegacyPubkey) (now : Nat) : TestCase :=
  steadyBucketFillup c (.mnode identifier) now

/-- `rate limiter - mnode - multiple identifiers` (lines 44–60). -/
def mnodeMultipleIdentifiers (identifier1 identifier2 : LegacyPubkey) (now : Nat) : TestCase :=
  multipleIdentifiers c (.mnode identifier1) (.mnode identifier2) now

/-- The client of the client tests, `10.1.1.13`. -/
def clientIdentifier : UInt32 := ((10 : UInt32) <<< 24) + ((1 : UInt32) <<< 16) + ((1 : UInt32) <<< 8) + 13

/-- The other client of `client - multiple identifiers`, `10.1.1.10`. -/
def clientIdentifier2 : UInt32 := ((10 : UInt32) <<< 24) + ((1 : UInt32) <<< 16) + ((1 : UInt32) <<< 8) + 10

/-- `rate limiter - client - empty bucket` (lines 62–78). -/
def clientEmptyBucket (now : Nat) : TestCase := emptyBucket c (.client clientIdentifier) now

/-- `rate limiter - client - steady bucket fillup` (lines 80–91). -/
def clientSteadyBucketFillup (now : Nat) : TestCase :=
  steadyBucketFillup c (.client clientIdentifier) now

/-- `rate limiter - client - multiple identifiers` (lines 93–107). -/
def clientMultipleIdentifiers (now : Nat) : TestCase :=
  multipleIdentifiers c (.client clientIdentifier) (.client clientIdentifier2) now

/-- The first client of `client - max client limit`, `ip_start`, `10.0.0.1`. -/
def ipStart : UInt32 := ((10 : UInt32) <<< 24) + 1

/-- `rate limiter - client - max client limit` (lines 109–124): `MAX_CLIENTS` clients from
`ip_start` on, one unchecked call each at `now`; then one client more, `overflow_ip`,
expected throttled at `now` and admitted `delta` later. -/
def maxClientLimit (now : Nat) : TestCase :=
  (List.range c.maxClients).map (fun i => ((.client (ipStart + UInt32.ofNat i), now), none)) ++
    [((.client (ipStart + UInt32.ofNat c.maxClients), now), some true),
      ((.client (ipStart + UInt32.ofNat c.maxClients), now + tokenDelay c), some false)]

/-! ## Checks -/

theorem checks_append {as bs : List Bool} {es fs : List (Option Bool)}
    (h : as.length = es.length) : checks (as ++ bs) (es ++ fs) = (checks as es && checks bs fs) := by
  rw [checks, List.zip_append h, List.all_append]; rfl

@[simp] theorem checks_cons (a : Bool) (as : List Bool) (e : Option Bool) (es : List (Option Bool)) :
    checks (a :: as) (e :: es) = (e.all (· == a) && checks as es) := rfl

@[simp] theorem checks_nil (as : List Bool) : checks as [] = true := by
  simp [checks]

/-- Answers all `false` meet as many `CHECK_FALSE`s. -/
theorem checks_replicate_false {as : List Bool} (h : ∀ a ∈ as, a = false) :
    checks as (List.replicate as.length (some false)) = true := by
  induction as with
  | nil => rfl
  | cons a as ih =>
    rw [List.length_cons, List.replicate_succ, checks_cons, h a (List.mem_cons_self _ _),
      ih fun b hb => h b (List.mem_cons_of_mem _ hb)]
    rfl

theorem checks_replicate (n : Nat) :
    checks (List.replicate n false) (List.replicate n (some false)) = true := by
  have h := @checks_replicate_false (List.replicate n false) fun _ => List.eq_of_mem_replicate
  rwa [List.length_replicate] at h

/-! ## The tests -/

/-- After `BUCKET_SIZE` queries at its first instant, the next query at that instant is
throttled, and one `d` microseconds later is admitted exactly when `d` microseconds refill a
whole token. -/
theorem run_full_burst (now d : Nat) :
    ((full c now).run (List.replicate c.bucketSize now ++ [now, now + d])).1 =
      List.replicate c.bucketSize false ++ [true, !decide (usPerSecond ≤ d * c.tokenRate)] := by
  obtain ⟨h1, h2, h3⟩ := run_full_replicate c now
  obtain ⟨hq, he⟩ := query_empty h2
  rw [h3] at hq he
  rw [run_append_fst, h1, TokenBucket.run_cons_fst, TokenBucket.run_cons_fst,
    TokenBucket.run_nil, hq, query_fst, he, query_last, Nat.add_sub_cancel_left, Nat.zero_add]

/-- **The `empty bucket` tests**, for nodes and for clients, pass exactly when `TOKEN_RATE`
divides 1 000 000: their `delta` is rounded down, and any rounding leaves the token short. -/
theorem passes_emptyBucket_iff (q : Request) (now : Nat) :
    passes c (emptyBucket c q now) = true ↔ c.tokenRate ∣ usPerSecond := by
  have hcalls : (emptyBucket c q now).map Prod.fst =
      (List.replicate c.bucketSize now ++ [now, now + tokenDelay c]).map fun t => (q, t) := by
    simp [emptyBucket, List.map_replicate]
  have hhead : (List.replicate c.bucketSize now ++ [now, now + tokenDelay c]).headD 0 = now := by
    cases c.bucketSize <;> rfl
  have hexp : (emptyBucket c q now).map Prod.snd =
      List.replicate c.bucketSize (some false) ++ [some true, some false] := by
    simp [emptyBucket]
  rw [passes, hcalls, hexp, run_solo, lookup_init, Option.getD_none, hhead, run_full_burst,
    checks_append (by simp), checks_replicate]
  rw [Nat.dvd_iff_le_div_mul, ← tokenDelay]
  by_cases hP : usPerSecond ≤ tokenDelay c * c.tokenRate <;> simp [hP]

/-- A stretch of the steady schedule, from its `i`-th call to its `j`-th, holds no more
calls than a bucket's tokens and their refill over it allow. -/
theorem stretch_le (hr : 0 < c.tokenRate)
    (h : c.tokenRate ∣ usPerSecond ∨ c.tokenRate ≤ (c.bucketSize - 1) * usPerSecond + 1)
    {i j : Nat} (hij : i ≤ j) :
    (j - i + 1) * usPerSecond ≤
      c.capacity + (j * usPerSecond / c.tokenRate - i * usPerSecond / c.tokenRate) * c.tokenRate := by
  have hB := c.bucketSize_pos
  have hX := Nat.div_mul_le_self (j * usPerSecond) c.tokenRate
  have hX' := Nat.lt_div_mul_add (a := j * usPerSecond) hr
  have hY := Nat.div_mul_le_self (i * usPerSecond) c.tokenRate
  have hmono : i * usPerSecond ≤ j * usPerSecond := Nat.mul_le_mul_right _ hij
  have hXY := Nat.div_le_div_right (c := c.tokenRate) hmono
  rw [Nat.sub_mul, Nat.add_mul, Nat.sub_mul, Nat.one_mul, RateLimits.capacity]
  rcases h with hd | hle
  · rw [Nat.div_mul_cancel (Dvd.dvd.mul_left hd _), Nat.div_mul_cancel (Dvd.dvd.mul_left hd _)]
    have := Nat.le_mul_of_pos_left usPerSecond hB
    omega
  · rw [Nat.sub_one_mul] at hle
    have := Nat.le_mul_of_pos_left usPerSecond hB
    omega

/-- The instants of the `steady bucket fillup` tests. -/
def steadyTimes (now : Nat) : List Nat :=
  (List.range (c.bucketSize * 10)).map fun i => now + i * usPerSecond / c.tokenRate

theorem steadyTimes_eq_cons (now : Nat) : ∃ rest, steadyTimes c now = now :: rest := by
  obtain ⟨n, hn⟩ : ∃ n, c.bucketSize * 10 = n + 1 :=
    ⟨_, (Nat.succ_pred_eq_of_pos (Nat.mul_pos c.bucketSize_pos (by decide))).symm⟩
  refine ⟨((List.range n).map Nat.succ).map fun i => now + i * usPerSecond / c.tokenRate, ?_⟩
  rw [steadyTimes, hn, List.range_succ_eq_map, List.map_cons]
  simp

theorem chain_steadyTimes (now : Nat) : (steadyTimes c now).Chain' (· ≤ ·) :=
  List.chain'_iff_pairwise.mpr <| List.pairwise_map.mpr <| (List.pairwise_lt_range _).imp
    fun hab => Nat.add_le_add_left (Nat.div_le_div_right (Nat.mul_le_mul_right _ hab.le)) _

theorem conforms_steadyTimes (now : Nat) (hr : 0 < c.tokenRate)
    (h : c.tokenRate ∣ usPerSecond ∨ c.tokenRate ≤ (c.bucketSize - 1) * usPerSecond + 1) :
    Conforms c (steadyTimes c now) := by
  refine conforms_of_getD fun i j hij hj => ?_
  have hl : (steadyTimes c now).length = c.bucketSize * 10 := by simp [steadyTimes]
  rw [List.getD_eq_getElem _ _ hj, List.getD_eq_getElem _ _ (by omega)]
  simp only [steadyTimes, List.getElem_map, List.getElem_range, Nat.add_sub_add_left]
  exact stretch_le c hr h hij

/-- **The `steady bucket fillup` tests**, for nodes and for clients, pass when `TOKEN_RATE`
divides 1 000 000, or when a bucket's tokens beyond the first make up for rounding the
instants down: `TOKEN_RATE ≤ (BUCKET_SIZE - 1) · 1 000 000 + 1`. -/
theorem passes_steadyBucketFillup (q : Request) (now : Nat) (hr : 0 < c.tokenRate)
    (h : c.tokenRate ∣ usPerSecond ∨ c.tokenRate ≤ (c.bucketSize - 1) * usPerSecond + 1) :
    passes c (steadyBucketFillup c q now) = true := by
  have hcalls : (steadyBucketFillup c q now).map Prod.fst = (steadyTimes c now).map fun t => (q, t) := by
    simp [steadyBucketFillup, steadyTimes]
  have hexp : (steadyBucketFillup c q now).map Prod.snd =
      List.replicate (steadyTimes c now).length (some false) := by
    simp [steadyBucketFillup, steadyTimes, Function.comp_def, List.map_const']
  obtain ⟨rest, hts⟩ := steadyTimes_eq_cons c now
  have hchain := chain_steadyTimes c now
  have hconf := conforms_steadyTimes c now hr h
  rw [hts] at hchain hconf
  rw [passes, hcalls, hexp, run_solo, lookup_init, Option.getD_none, hts, List.headD_cons,
    ← length_run (full c now) (now :: rest)]
  exact checks_replicate_false ((run_full_all_false_iff hchain).mpr hconf)

theorem passes_steadyBucketFillup_two_tokens :
    0 < twoTokenLimits.tokenRate ∧
      (twoTokenLimits.tokenRate ∣ usPerSecond ∨
        twoTokenLimits.tokenRate ≤ (twoTokenLimits.bucketSize - 1) * usPerSecond + 1) ∧
      passes twoTokenLimits (clientSteadyBucketFillup twoTokenLimits 0) = true :=
  ⟨by decide, .inl (by decide),
    passes_steadyBucketFillup _ (.client clientIdentifier) 0 (by decide) (.inl (by decide))⟩

/-- **The `multiple identifiers` tests**, for nodes and for clients, pass: another
identifier has a bucket of its own. -/
theorem passes_multipleIdentifiers {q₁ q₂ : Request} (hq : q₂ ≠ q₁) (now : Nat) :
    passes c (multipleIdentifiers c q₁ q₂ now) = true := by
  have hcalls : (multipleIdentifiers c q₁ q₂ now).map Prod.fst =
      (List.replicate c.bucketSize now ++ [now]).map (fun t => (q₁, t)) ++ [(q₂, now)] := by
    simp [multipleIdentifiers]
  have hexp : (multipleIdentifiers c q₁ q₂ now).map Prod.snd =
      (List.replicate c.bucketSize (some false) ++ [some true]) ++ [some false] := by
    simp [multipleIdentifiers]
  have hhead : (List.replicate c.bucketSize now ++ [now]).headD 0 = now := by
    cases c.bucketSize <;> rfl
  obtain ⟨h1, h2, h3⟩ := run_full_replicate c now
  obtain ⟨hthrottle, -⟩ := query_empty h2
  rw [h3] at hthrottle
  have hnone : ((RateLimiter.init c).run
      ((List.replicate c.bucketSize now ++ [now]).map fun t => (q₁, t))).2.lookup q₂ = none :=
    lookup_run_init_of_ne fun x hx => by obtain ⟨t, -, rfl⟩ := List.mem_map.mp hx; exact hq.symm
  rw [passes, hcalls, hexp, (RateLimiter.run_append _ _ _).1, checks_append (by simp), run_solo,
    lookup_init, Option.getD_none, hhead, run_append_fst, h1, TokenBucket.run_cons_fst,
    TokenBucket.run_nil, hthrottle, checks_append (by simp), checks_replicate,
    RateLimiter.run_cons_fst, step_fst_of_lookup_none _ hnone]
  rfl

theorem passes_multipleIdentifiers_clients :
    Request.client clientIdentifier2 ≠ .client clientIdentifier ∧
      passes twoTokenLimits (clientMultipleIdentifiers twoTokenLimits 0) = true :=
  ⟨by decide, passes_multipleIdentifiers _ (by decide) 0⟩

/-- Offsets from `ip_start` below `2^24` are distinct clients: the addresses do not wrap. -/
theorem ipStart_add_inj {i j : Nat} (hi : i < 2 ^ 24) (hj : j < 2 ^ 24)
    (h : ipStart + UInt32.ofNat i = ipStart + UInt32.ofNat j) : i = j := by
  have hs : ipStart.toNat = 167772161 := by decide
  have e : ∀ k, (ipStart + UInt32.ofNat k).toNat = (167772161 + k % 2 ^ 32) % 2 ^ 32 := fun k => by
    show (ipStart.toNat + (UInt32.ofNat k).toNat) % 2 ^ 32 = _
    rw [hs]; rfl
  have h' := congrArg UInt32.toNat h
  rw [e, e] at h'
  omega

/-- **The `max client limit` test fails**, whatever the constants (short of `2^24` clients,
where the addresses would wrap): it expects `overflow_ip`, a new client at a full client
table, to be throttled, and §4.4 admits every new client. -/
theorem passes_maxClientLimit (now : Nat) (hM : c.maxClients < 2 ^ 24) :
    passes c (maxClientLimit c now) = false := by
  let calls := (List.range c.maxClients).map fun i =>
    ((Request.client (ipStart + UInt32.ofNat i), now), (none : Option Bool))
  let ov := Request.client (ipStart + UInt32.ofNat c.maxClients)
  have hcalls : (maxClientLimit c now).map Prod.fst =
      calls.map Prod.fst ++ [(ov, now), (ov, now + tokenDelay c)] := by
    simp [maxClientLimit, calls, ov]
  have hexp : (maxClientLimit c now).map Prod.snd = calls.map Prod.snd ++ [some true, some false] := by
    simp [maxClientLimit, calls]
  have hnone : ((RateLimiter.init c).run (calls.map Prod.fst)).2.lookup ov = none :=
    lookup_run_init_of_ne fun x hx he => by
      obtain ⟨y, hy, rfl⟩ := List.mem_map.mp hx
      obtain ⟨i, hi, rfl⟩ := List.mem_map.mp hy
      have hi' := List.mem_range.mp hi
      have := ipStart_add_inj (by omega) hM (Request.client.inj he)
      omega
  rw [passes, hcalls, hexp, (RateLimiter.run_append _ _ _).1, checks_append (by simp),
    RateLimiter.run_cons_fst, step_fst_of_lookup_none _ hnone]
  simp

theorem passes_maxClientLimit_one_client :
    twoTokenLimits.maxClients < 2 ^ 24 ∧ passes twoTokenLimits (maxClientLimit twoTokenLimits 0) = false :=
  ⟨by decide, passes_maxClientLimit _ 0 (by decide)⟩

end RateLimiterTest

end Beldex
