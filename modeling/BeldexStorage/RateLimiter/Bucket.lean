import Mathlib.Data.List.Chain
import Mathlib.Data.List.GetD

/-! # The token bucket

`RateLimiter` throttles requests with one token bucket per identifier (spec §4.4).  Its
code, `rate_limiter.h` and `rate_limiter.cpp`, is not among the sources: only its unit tests
are (`unit_test/rate_limiter.cpp`).  This module and `RateLimiter.Table` model it after
§4.4, and `RateLimiter.UnitTest` runs the unit tests against the model.

Time is `std::chrono::steady_clock` in microseconds, as the tests count it, and a bucket
counts its tokens in millionths.  A refill over `now - last` microseconds at `TOKEN_RATE`
tokens a second then adds exactly `(now - last) * TOKEN_RATE` millionths, so the spec's
fractional tokens are kept without rounding.

`query_cases` says once what a query does; every result about runs of queries is derived
from it:

* `run_count_false_le`, **monotonicity** (§4.5): in a window of `W` microseconds a bucket
  admits at most `BUCKET_SIZE + W · TOKEN_RATE` queries, whatever it held before;
* `query_of_quiet`, **liveness** (§4.5): after a quiet period of `BUCKET_SIZE / TOKEN_RATE`
  seconds the bucket is full and the next query is admitted;
* `run_all_false_of_conforms`: conversely, a run whose every window holds at most that many
  queries is admitted in full.
-/
namespace Beldex

/-- Modelled from the spec: the constants `BUCKET_SIZE`, `TOKEN_RATE` (tokens a second) and
`MAX_CLIENTS` of `RateLimiter` (§4.4).  A bucket holds at least one token and the client
table at least one client. -/
structure RateLimits where
  bucketSize : Nat
  tokenRate : Nat
  maxClients : Nat
  bucketSize_pos : 0 < bucketSize
  maxClients_pos : 0 < maxClients

/-- Microseconds in a second, and millionths in a token. -/
def usPerSecond : Nat := 1000000

/-- A full bucket, in millionths of a token. -/
def RateLimits.capacity (c : RateLimits) : Nat := c.bucketSize * usPerSecond

theorem RateLimits.usPerSecond_le_capacity (c : RateLimits) : usPerSecond ≤ c.capacity :=
  Nat.le_mul_of_pos_left _ c.bucketSize_pos

/-- Modelled from the spec: a bucket, `(tokens, last_update)` (§3), its tokens in millionths
and never more than a full bucket. -/
structure TokenBucket (c : RateLimits) where
  tokens : Nat
  last : Nat
  tokens_le : tokens ≤ c.capacity

namespace TokenBucket
variable {c : RateLimits}

/-- Modelled from the spec, §4.4 step 1: the bucket of an identifier first seen at `now`. -/
def full (c : RateLimits) (now : Nat) : TokenBucket c := ⟨c.capacity, now, le_rfl⟩

/-- Modelled from the spec, §4.4 steps 2 and 3: the refill for the time since `last`, which
is zero when the clock went back, up to a full bucket; `last` becomes `now`. -/
def fill (b : TokenBucket c) (now : Nat) : TokenBucket c :=
  ⟨min c.capacity (b.tokens + (now - b.last) * c.tokenRate), now, Nat.min_le_left _ _⟩

/-- Modelled from the spec, §4.4 step 4: after the refill, a query takes a whole token and
is admitted (`false`) when there is one, and is throttled (`true`) otherwise: the answer of
`should_rate_limit`. -/
def query (b : TokenBucket c) (now : Nat) : Bool × TokenBucket c :=
  if usPerSecond ≤ (b.fill now).tokens then
    (false, ⟨(b.fill now).tokens - usPerSecond, now,
      Nat.le_trans (Nat.sub_le _ _) (b.fill now).tokens_le⟩)
  else (true, b.fill now)

@[simp] theorem full_tokens (now : Nat) : (full c now).tokens = c.capacity := rfl

@[simp] theorem full_last (now : Nat) : (full c now).last = now := rfl

@[simp] theorem fill_tokens (b : TokenBucket c) (now : Nat) :
    (b.fill now).tokens = min c.capacity (b.tokens + (now - b.last) * c.tokenRate) := rfl

@[simp] theorem query_last (b : TokenBucket c) (now : Nat) : (b.query now).2.last = now := by
  unfold query; split <;> rfl

/-- **What a query does.** It is admitted and takes a token when the refilled bucket holds a
whole one, and is throttled, leaving the refilled bucket, when it does not. -/
theorem query_cases (b : TokenBucket c) (now : Nat) :
    ((b.query now).1 = false ∧ usPerSecond ≤ (b.fill now).tokens ∧
        (b.query now).2.tokens + usPerSecond = (b.fill now).tokens) ∨
      ((b.query now).1 = true ∧ (b.fill now).tokens < usPerSecond ∧
        (b.query now).2.tokens = (b.fill now).tokens) := by
  unfold query
  split
  · exact .inl ⟨rfl, ‹_›, Nat.sub_add_cancel ‹_›⟩
  · exact .inr ⟨rfl, Nat.lt_of_not_le ‹_›, rfl⟩

/-- An admitted query leaves the refilled bucket less one token. -/
theorem query_tokens_of_admitted {b : TokenBucket c} {now : Nat} (h : (b.query now).1 = false) :
    (b.query now).2.tokens + usPerSecond = (b.fill now).tokens :=
  ((query_cases b now).resolve_right fun h' => Bool.noConfusion (h.symm.trans h'.1)).2.2

/-- A throttled query leaves the refilled bucket. -/
theorem query_tokens_of_throttled {b : TokenBucket c} {now : Nat} (h : (b.query now).1 = true) :
    (b.query now).2.tokens = (b.fill now).tokens :=
  ((query_cases b now).resolve_left fun h' => Bool.noConfusion (h'.1.symm.trans h)).2.2

theorem query_eq_false_iff (b : TokenBucket c) (now : Nat) :
    (b.query now).1 = false ↔ usPerSecond ≤ b.tokens + (now - b.last) * c.tokenRate := by
  have hfill : usPerSecond ≤ (b.fill now).tokens ↔
      usPerSecond ≤ b.tokens + (now - b.last) * c.tokenRate := by
    rw [fill_tokens, Nat.le_min]; exact and_iff_right c.usPerSecond_le_capacity
  rw [← hfill]
  rcases query_cases b now with ⟨hr, hf, -⟩ | ⟨hr, hf, -⟩ <;> rw [hr]
  · exact iff_of_true rfl hf
  · exact iff_of_false Bool.noConfusion (Nat.not_le.mpr hf)

theorem query_fst (b : TokenBucket c) (now : Nat) :
    (b.query now).1 = !decide (usPerSecond ≤ b.tokens + (now - b.last) * c.tokenRate) := by
  by_cases hs : usPerSecond ≤ b.tokens + (now - b.last) * c.tokenRate
  · rw [(query_eq_false_iff b now).mpr hs, decide_eq_true hs]; rfl
  · rw [decide_eq_false hs]
    cases h : (b.query now).1
    · exact absurd ((query_eq_false_iff b now).mp h) hs
    · rfl

/-- A new identifier's first query is admitted. -/
theorem query_full (now : Nat) : ((full c now).query now).1 = false :=
  (query_eq_false_iff _ now).mpr (by simpa using c.usPerSecond_le_capacity)

/-- Queries at the instants `ts`, in order: the answers and the bucket after them. -/
def run (b : TokenBucket c) : List Nat → List Bool × TokenBucket c
  | [] => ([], b)
  | t :: ts => ((b.query t).1 :: ((b.query t).2.run ts).1, ((b.query t).2.run ts).2)

@[simp] theorem run_nil (b : TokenBucket c) : b.run [] = ([], b) := rfl

theorem run_cons (b : TokenBucket c) (t : Nat) (ts : List Nat) :
    b.run (t :: ts) = ((b.query t).1 :: ((b.query t).2.run ts).1, ((b.query t).2.run ts).2) :=
  rfl

@[simp] theorem run_cons_fst (b : TokenBucket c) (t : Nat) (ts : List Nat) :
    (b.run (t :: ts)).1 = (b.query t).1 :: ((b.query t).2.run ts).1 := rfl

@[simp] theorem run_cons_snd (b : TokenBucket c) (t : Nat) (ts : List Nat) :
    (b.run (t :: ts)).2 = ((b.query t).2.run ts).2 := rfl

@[simp] theorem length_run (b : TokenBucket c) (ts : List Nat) :
    (b.run ts).1.length = ts.length := by
  induction ts generalizing b <;> simp [*]

theorem run_append (b : TokenBucket c) (xs ys : List Nat) :
    b.run (xs ++ ys) = ((b.run xs).1 ++ ((b.run xs).2.run ys).1, ((b.run xs).2.run ys).2) := by
  induction xs generalizing b with
  | nil => rfl
  | cons x xs ih => simp only [List.cons_append, run_cons, ih]

/-- Queries at the instant of the last update get no refill: they are admitted while whole
tokens are left. -/
theorem run_replicate_last (b : TokenBucket c) {k : Nat} (hk : k * usPerSecond ≤ b.tokens) :
    (b.run (List.replicate k b.last)).1 = List.replicate k false ∧
      (b.run (List.replicate k b.last)).2.tokens = b.tokens - k * usPerSecond ∧
      (b.run (List.replicate k b.last)).2.last = b.last := by
  induction k generalizing b with
  | zero => simp
  | succ k ih =>
    rw [Nat.succ_mul] at hk
    have hfill : (b.fill b.last).tokens = b.tokens := by simp [min_eq_right b.tokens_le]
    have hq : (b.query b.last).1 = false := (query_eq_false_iff b b.last).mpr (by simp; omega)
    have htok := query_tokens_of_admitted hq
    obtain ⟨h1, h2, h3⟩ := @ih (b.query b.last).2 (by omega)
    rw [query_last] at h1 h2 h3
    rw [List.replicate_succ, run_cons_fst, run_cons_snd, hq, h1, h2, h3, List.replicate_succ,
      Nat.succ_mul]
    exact ⟨rfl, by omega, rfl⟩

theorem run_append_fst (b : TokenBucket c) (xs ys : List Nat) :
    (b.run (xs ++ ys)).1 = (b.run xs).1 ++ ((b.run xs).2.run ys).1 := by
  rw [run_append]

/-- `BUCKET_SIZE` queries at its first instant leave a bucket empty. -/
theorem run_full_replicate (c : RateLimits) (now : Nat) :
    ((full c now).run (List.replicate c.bucketSize now)).1 = List.replicate c.bucketSize false ∧
      ((full c now).run (List.replicate c.bucketSize now)).2.tokens = 0 ∧
      ((full c now).run (List.replicate c.bucketSize now)).2.last = now := by
  have h := run_replicate_last (full c now) (k := c.bucketSize) le_rfl
  simpa only [full_last, full_tokens, RateLimits.capacity, Nat.sub_self] using h

/-- An empty bucket throttles a query at its last instant, and stays empty. -/
theorem query_empty {b : TokenBucket c} (h0 : b.tokens = 0) :
    (b.query b.last).1 = true ∧ (b.query b.last).2.tokens = 0 := by
  have hq : (b.query b.last).1 = true := by
    rw [query_fst, h0, Nat.sub_self, Nat.zero_mul]; rfl
  exact ⟨hq, by rw [query_tokens_of_throttled hq, fill_tokens, h0, Nat.sub_self, Nat.zero_mul]; simp⟩

/-- One query, counted: an admitted query takes a whole token out of the refilled bucket. -/
theorem count_query_add (b : TokenBucket c) (now : Nat) (rs : List Bool) :
    ((b.query now).1 :: rs).count false * usPerSecond + (b.query now).2.tokens =
      rs.count false * usPerSecond + (b.fill now).tokens := by
  rcases query_cases b now with ⟨hr, -, ht⟩ | ⟨hr, -, ht⟩ <;>
    simp only [hr, List.count_cons, beq_self_eq_true, Bool.true_beq, if_true, if_false,
      Bool.false_eq_true, Nat.add_mul, Nat.one_mul, Nat.add_zero] <;> omega

/-- **Admissions against refill.** Queries at non-decreasing instants from `last` on, up to
`tEnd`, are admitted a whole token each, out of what the bucket held and what it gains by
`tEnd`. -/
theorem run_count_false_add {b : TokenBucket c} {ts : List Nat} {tEnd : Nat}
    (hs : List.Chain (· ≤ ·) b.last ts) (hend : ∀ t ∈ ts, t ≤ tEnd) :
    (b.run ts).1.count false * usPerSecond + (b.run ts).2.tokens ≤
      b.tokens + (tEnd - b.last) * c.tokenRate := by
  induction ts generalizing b with
  | nil => simp
  | cons t ts ih =>
    obtain ⟨hlt, hs⟩ := List.chain_cons.mp hs
    have ht := hend t (List.mem_cons_self _ _)
    have hrest := @ih (b.query t).2 (by rwa [query_last])
      (fun u hu => hend u (List.mem_cons_of_mem _ hu))
    have hfill : (b.fill t).tokens ≤ b.tokens + (t - b.last) * c.tokenRate := Nat.min_le_right _ _
    have hsplit : (tEnd - b.last) * c.tokenRate =
        (t - b.last) * c.tokenRate + (tEnd - t) * c.tokenRate := by
      rw [← Nat.add_mul]; congr 1; omega
    have hone := count_query_add b t ((b.query t).2.run ts).1
    rw [query_last] at hrest
    rw [run_cons_fst, run_cons_snd]
    omega

/-- **Monotonicity** (§4.5).  The queries of a window of `W` microseconds, at
non-decreasing instants from the window's first query on, are admitted at most
`BUCKET_SIZE + W · TOKEN_RATE` times, whatever the bucket held before the window (in
millionths: so at most `BUCKET_SIZE + ⌈W · TOKEN_RATE⌉` times, the bound of §4.5, without its
rounding up). -/
theorem run_count_false_le (b : TokenBucket c) {t₀ W : Nat} {ts : List Nat}
    (hs : List.Chain (· ≤ ·) t₀ ts) (hw : ∀ t ∈ ts, t ≤ t₀ + W) :
    (b.run (t₀ :: ts)).1.count false * usPerSecond ≤ c.capacity + W * c.tokenRate := by
  have hrest := @run_count_false_add _ (b.query t₀).2 ts (t₀ + W) (by rwa [query_last]) hw
  have hfill : (b.fill t₀).tokens ≤ c.capacity := (b.fill t₀).tokens_le
  have hone := count_query_add b t₀ ((b.query t₀).2.run ts).1
  rw [query_last, Nat.add_sub_cancel_left] at hrest
  rw [run_cons_fst]
  omega

/-- **Liveness** (§4.5).  After a quiet period of at least `BUCKET_SIZE / TOKEN_RATE`
seconds the bucket is full again, and the next query is admitted. -/
theorem query_of_quiet (b : TokenBucket c) {now : Nat}
    (hq : c.capacity ≤ (now - b.last) * c.tokenRate) :
    (b.fill now).tokens = c.capacity ∧ (b.query now).1 = false := by
  have hcap := c.usPerSecond_le_capacity
  refine ⟨?_, (query_eq_false_iff b now).mpr (by omega)⟩
  rw [fill_tokens]
  omega

/-! ## The runs a bucket admits in full -/

/-- A run **conforms** to the limits when every window of it, from one of its queries on
and `W` microseconds long, holds at most `BUCKET_SIZE + W · TOKEN_RATE` queries. -/
def Conforms (c : RateLimits) (ts : List Nat) : Prop :=
  ∀ t₀ w W, t₀ :: w <:+: ts → (∀ t ∈ w, t ≤ t₀ + W) →
    (w.length + 1) * usPerSecond ≤ c.capacity + W * c.tokenRate

/-- A run admitted in full conforms: monotonicity, on each of its windows. -/
theorem conforms_of_run_all_false (b : TokenBucket c) {ts : List Nat}
    (hs : List.Chain' (· ≤ ·) ts) (h : ∀ r ∈ (b.run ts).1, r = false) : Conforms c ts := by
  rintro t₀ w W ⟨pre, post, rfl⟩ hw
  rw [run_append, run_append] at h
  have hmid : ∀ r ∈ ((b.run pre).2.run (t₀ :: w)).1, false = r := fun r hr =>
    (h r (List.mem_append_left _ (List.mem_append_right _ hr))).symm
  have hcount := run_count_false_le (b.run pre).2 (hs.sublist (List.IsInfix.sublist ⟨pre, post, rfl⟩)) hw
  rwa [List.count_eq_length.mpr hmid, length_run, List.length_cons] at hcount

/-- A run conforms when each of its stretches does, from its `i`-th query to its `j`-th. -/
theorem conforms_of_getD {ts : List Nat}
    (h : ∀ i j, i ≤ j → j < ts.length →
      (j - i + 1) * usPerSecond ≤ c.capacity + (ts.getD j 0 - ts.getD i 0) * c.tokenRate) :
    Conforms c ts := by
  rintro t₀ w W ⟨pre, post, rfl⟩ hw
  have hi : (pre ++ t₀ :: w ++ post).getD pre.length 0 = t₀ := by
    rw [List.append_assoc, List.getD_append_right _ _ _ _ le_rfl, Nat.sub_self]; rfl
  have hj : (pre ++ t₀ :: w ++ post).getD (pre.length + w.length) 0 ≤ t₀ + W := by
    rw [List.getD_append _ _ _ _ (by simp), List.getD_append_right _ _ _ _ (by omega),
      Nat.add_sub_cancel_left]
    cases w with
    | nil => simp
    | cons u w =>
      rw [List.length_cons, List.getD_cons_succ, List.getD_eq_getElem _ _ (by simp)]
      exact hw _ (List.getElem_mem _)
  have hstretch := h pre.length (pre.length + w.length) (by omega) (by simp; omega)
  rw [hi, Nat.add_sub_cancel_left] at hstretch
  exact hstretch.trans (Nat.add_le_add_left (Nat.mul_le_mul_right _ (by omega)) _)

/-- **A conforming run is admitted in full**, from a bucket whose tokens cover every prefix
of the run: the converse of monotonicity. -/
theorem run_all_false_of_conforms {b : TokenBucket c} {ts : List Nat}
    (hs : List.Chain (· ≤ ·) b.last ts) (hc : Conforms c ts)
    (hb : ∀ w W, w <+: ts → (∀ t ∈ w, t ≤ b.last + W) →
      w.length * usPerSecond ≤ b.tokens + W * c.tokenRate) :
    ∀ r ∈ (b.run ts).1, r = false := by
  induction ts generalizing b with
  | nil => simp
  | cons t ts ih =>
    obtain ⟨hlt, hs⟩ := List.chain_cons.mp hs
    have hfirst := hb [t] (t - b.last) (by simp) (by simp; omega)
    rw [List.length_singleton, Nat.one_mul] at hfirst
    have hq : (b.query t).1 = false := (query_eq_false_iff b t).mpr hfirst
    have htok := query_tokens_of_admitted hq
    rw [run_cons_fst]
    refine List.forall_mem_cons.mpr ⟨hq, ih (by rwa [query_last])
      (fun t₀ w W hi hw => hc t₀ w W (List.infix_cons hi) hw) fun w W hp hw => ?_⟩
    rw [query_last] at hw
    have hwin := hc t w W (List.cons_prefix_cons.mpr ⟨rfl, hp⟩).isInfix hw
    have hpre := hb (t :: w) (t - b.last + W) (List.cons_prefix_cons.mpr ⟨rfl, hp⟩)
      (List.forall_mem_cons.mpr ⟨by omega, fun u hu => by have := hw u hu; omega⟩)
    rw [List.length_cons, Nat.add_mul (t - b.last), ← Nat.add_assoc] at hpre
    rw [fill_tokens] at htok
    rw [Nat.succ_mul] at hwin hpre
    omega

/-- **The queries of a new identifier are all admitted exactly when they conform**: a bucket
throttles only runs that break the bound of monotonicity on some window. -/
theorem run_full_all_false_iff {t₀ : Nat} {ts : List Nat} (hs : List.Chain (· ≤ ·) t₀ ts) :
    (∀ r ∈ ((full c t₀).run (t₀ :: ts)).1, r = false) ↔ Conforms c (t₀ :: ts) := by
  refine ⟨conforms_of_run_all_false _ hs, fun hc => run_all_false_of_conforms
    (List.chain_cons.mpr ⟨le_rfl, hs⟩) hc fun w W hp hw => ?_⟩
  rcases List.prefix_cons_iff.mp hp with rfl | ⟨w', rfl, hp'⟩
  · simp
  · exact hc t₀ w' W (List.cons_prefix_cons.mpr ⟨rfl, hp'⟩).isInfix
      fun u hu => hw u (List.mem_cons_of_mem _ hu)

end TokenBucket

end Beldex
