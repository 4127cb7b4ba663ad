import BeldexStorage.RateLimiter.Bucket
import BeldexStorage.Key
import Mathlib.Data.List.AList
import Mathlib.Data.List.MinMax
import Mathlib.Data.Finset.Card

/-! # The rate limiter

`RateLimiter` keeps two tables of token buckets (spec §3, §4.4): one for master nodes, keyed
by their legacy public key, which only grows, and one for clients, keyed by IPv4 address,
which holds at most `MAX_CLIENTS` buckets.  A new client arriving at a full client table
takes the place of the least recently used client, "LRU over last-observed time".  As in
`RateLimiter.Bucket`, the code is not among the sources and the model follows §4.4.

A table is an association list, the most recently queried identifier first.  What one call
does to the tables is said once, for every identifier (`step_fst`, `lookup_step_self`,
`lookup_step_ne`): it is answered from the caller's own bucket, and another identifier's
bucket is left as it was or, for a client, evicted.  Over whole runs of calls, interleaved in
any way:

* `answersOf_mnode`: the answers to a node are those of its own bucket over its own
  instants, so the results of `RateLimiter.Bucket` hold of it in every run:
  `count_mnode_le`, monotonicity, and `mnode_all_false_iff`, a new node is throttled only
  when its queries break that bound;
* `run_step_of_quiet`, liveness, for nodes and clients alike;
* `shouldRateLimitClient_new` and `shouldRateLimitClient_evict`: a new client is always
  admitted, and at a full table exactly one client loses its bucket, one updated longest
  ago;
* `run_maxClients_succ`: after `MAX_CLIENTS + 1` distinct clients, exactly one has lost its
  bucket, the least recently used of the first `MAX_CLIENTS` (§8), from
  `entries_run_new_clients`, the client table after new clients that fit.
-/
namespace Beldex

/-- Modelled from the spec: a table of buckets, one per identifier, the most recently queried
first. -/
abbrev Buckets (ι : Type) (c : RateLimits) := AList fun _ : ι => TokenBucket c

namespace Buckets
variable {ι : Type} [DecidableEq ι] {c : RateLimits}

/-- The bucket `id` is queried with at `now`: its own, or a full one for an identifier the
table does not hold (§4.4 step 1). -/
def bucketOf (t : Buckets ι c) (id : ι) (now : Nat) : TokenBucket c :=
  (t.lookup id).getD (.full c now)

/-- Modelled from the spec, §4.4: one query of `id` at `now`; its bucket, updated, goes to the
front of the table. -/
def query (t : Buckets ι c) (id : ι) (now : Nat) : Bool × Buckets ι c :=
  (((t.bucketOf id now).query now).1, t.insert id ((t.bucketOf id now).query now).2)

theorem lookup_query_self (t : Buckets ι c) (id : ι) (now : Nat) :
    (t.query id now).2.lookup id = some ((t.bucketOf id now).query now).2 :=
  AList.lookup_insert _

theorem lookup_query_ne (t : Buckets ι c) {id u : ι} (h : u ≠ id) (now : Nat) :
    (t.query id now).2.lookup u = t.lookup u :=
  AList.lookup_insert_ne h

theorem length_keys_insert (t : Buckets ι c) (id : ι) (b : TokenBucket c) :
    (t.insert id b).keys.length = if id ∈ t then t.keys.length else t.keys.length + 1 := by
  rw [AList.keys_insert, List.length_cons]
  split
  · have hk := AList.mem_keys.mp ‹_›
    rw [List.length_erase_of_mem hk]
    have := List.length_pos_of_mem hk
    omega
  · rw [List.erase_of_not_mem fun h => ‹id ∉ t› (AList.mem_keys.mpr h)]

end Buckets

/-! ## The client table -/

section Clients
variable {c : RateLimits}

/-- Modelled from the spec, §4.4: the client to evict, the one whose bucket was updated
longest ago, and of those the least recently queried. -/
def lruClient (t : Buckets UInt32 c) : Option UInt32 :=
  (t.entries.reverse.argmin fun e => e.2.last).map Sigma.fst

/-- The client `lruClient` picks holds a bucket updated no later than any other. -/
theorem lruClient_spec {t : Buckets UInt32 c} {v : UInt32} (h : lruClient t = some v) :
    ∃ bv, t.lookup v = some bv ∧ ∀ u bu, t.lookup u = some bu → bv.last ≤ bu.last := by
  obtain ⟨e, he, rfl⟩ := Option.map_eq_some'.mp h
  refine ⟨e.2, AList.mem_lookup_iff.mpr (List.mem_reverse.mp (List.argmin_mem he)),
    fun u bu hu => ?_⟩
  exact List.le_of_mem_argmin (f := fun e : Σ _ : UInt32, TokenBucket c => e.2.last)
    (List.mem_reverse.mpr (AList.mem_lookup_iff.mp hu)) he

/-- Modelled from the spec, §4.4: the client table a client `ip` is inserted into.  A new
client at a full table takes the place of the least recently used one. -/
def evictFor (t : Buckets UInt32 c) (ip : UInt32) : Buckets UInt32 c :=
  if ip ∉ t ∧ c.maxClients ≤ t.keys.length then (lruClient t).elim t t.erase else t

/-- **What `evictFor` does**: nothing, for a known client or a table with room; at a full
table, a new client evicts the client `lruClient` picks. -/
theorem evictFor_cases (t : Buckets UInt32 c) (ip : UInt32) :
    (evictFor t ip = t ∧ (ip ∈ t ∨ t.keys.length < c.maxClients)) ∨
      ∃ v ∈ t, lruClient t = some v ∧ evictFor t ip = t.erase v ∧ ip ∉ t ∧
        c.maxClients ≤ t.keys.length := by
  unfold evictFor
  by_cases hfull : ip ∉ t ∧ c.maxClients ≤ t.keys.length
  · rw [if_pos hfull]
    have hne : t.entries.reverse ≠ [] := fun h => by
      have hk : t.keys = [] := by
        rw [AList.keys, List.reverse_eq_nil_iff.mp h, List.keys_nil]
      have := c.maxClients_pos
      rw [hk] at hfull
      exact absurd hfull.2 (by simp; omega)
    obtain ⟨e, he⟩ := Option.ne_none_iff_exists'.mp
      (mt (List.argmin_eq_none (f := fun e : Σ _ : UInt32, TokenBucket c => e.2.last)).mp hne)
    have hv : lruClient t = some e.1 := by rw [lruClient, he]; rfl
    obtain ⟨bv, hbv, -⟩ := lruClient_spec hv
    exact .inr ⟨e.1, AList.lookup_isSome.mp (by rw [hbv]; rfl), hv, by rw [hv]; rfl, hfull⟩
  · rw [if_neg hfull]
    by_cases hip : ip ∈ t
    · exact .inl ⟨rfl, .inl hip⟩
    · exact .inl ⟨rfl, .inr (Nat.lt_of_not_le fun h => hfull ⟨hip, h⟩)⟩

theorem length_keys_query_evictFor {t : Buckets UInt32 c} (h : t.keys.length ≤ c.maxClients)
    (ip : UInt32) (now : Nat) : ((evictFor t ip).query ip now).2.keys.length ≤ c.maxClients := by
  have := c.maxClients_pos
  rw [Buckets.query, Buckets.length_keys_insert]
  rcases evictFor_cases t ip with ⟨he, hip | hlt⟩ | ⟨v, hv, -, he, hip, hM⟩ <;> rw [he]
  · rw [if_pos hip]; exact h
  · split <;> omega
  · rw [if_neg fun h' => hip (AList.mem_erase.mp h').2, AList.keys_erase,
      List.length_erase_of_mem (AList.mem_keys.mp hv)]
    omega

/-- Eviction leaves the bucket of the client inserted as it was: it only ever removes another
client. -/
theorem lookup_evictFor_self (t : Buckets UInt32 c) (ip : UInt32) :
    (evictFor t ip).lookup ip = t.lookup ip := by
  rcases evictFor_cases t ip with ⟨he, -⟩ | ⟨v, hv, -, he, hip, -⟩ <;> rw [he]
  rw [AList.lookup_erase_ne fun h : ip = v => hip (h ▸ hv)]

/-- Eviction removes a bucket or leaves it. -/
theorem lookup_evictFor (t : Buckets UInt32 c) (ip u : UInt32) :
    (evictFor t ip).lookup u = t.lookup u ∨ (evictFor t ip).lookup u = none := by
  rcases evictFor_cases t ip with ⟨he, -⟩ | ⟨v, -, -, he, -⟩
  · exact .inl (by rw [he])
  · rw [he]
    by_cases huv : u = v
    · exact .inr (huv ▸ AList.lookup_erase _ _)
    · exact .inl (AList.lookup_erase_ne huv)

end Clients

/-- Modelled from the spec: the state of `RateLimiter` (§3), its two tables; the client table
holds at most `MAX_CLIENTS` buckets. -/
structure RateLimiter (c : RateLimits) where
  mnodeBuckets : Buckets LegacyPubkey c
  clientBuckets : Buckets UInt32 c
  clients_le : clientBuckets.keys.length ≤ c.maxClients

/-- A call to the rate limiter: `should_rate_limit` for a master node, or
`should_rate_limit_client` for a client. -/
inductive Request
  | mnode (pk : LegacyPubkey)
  | client (ip : UInt32)
  deriving DecidableEq

/-- Limits of two tokens a bucket, refilled at one token a second, and one client. -/
def twoTokenLimits : RateLimits := ⟨2, 1, 1, by decide, by decide⟩

/-- The node whose legacy key is all zero. -/
def zeroNode : LegacyPubkey := ⟨Key32.zero⟩

/-- Three calls of `zeroNode` at instant 0. -/
def burstAtZero : List (Request × Nat) := List.replicate 3 (.mnode zeroNode, 0)

namespace RateLimiter
variable {c : RateLimits}

/-- A new rate limiter, as the tests build it (`RateLimiter rate_limiter{bmq}`): both tables
empty. -/
def init (c : RateLimits) : RateLimiter c := ⟨∅, ∅, by simp [AList.keys_empty]⟩

/-- Modelled from the spec: `should_rate_limit(pubkey, now)`, `true` when the node is
throttled. -/
def shouldRateLimit (r : RateLimiter c) (pk : LegacyPubkey) (now : Nat) :
    Bool × RateLimiter c :=
  ((r.mnodeBuckets.query pk now).1, { r with mnodeBuckets := (r.mnodeBuckets.query pk now).2 })

/-- Modelled from the spec: `should_rate_limit_client(ipv4, now)`, `true` when the client is
throttled. -/
def shouldRateLimitClient (r : RateLimiter c) (ip : UInt32) (now : Nat) :
    Bool × RateLimiter c :=
  (((evictFor r.clientBuckets ip).query ip now).1,
    ⟨r.mnodeBuckets, ((evictFor r.clientBuckets ip).query ip now).2,
      length_keys_query_evictFor r.clients_le ip now⟩)

/-- One call. -/
def step (r : RateLimiter c) : Request → Nat → Bool × RateLimiter c
  | .mnode pk, now => r.shouldRateLimit pk now
  | .client ip, now => r.shouldRateLimitClient ip now

/-- Calls at the given instants, in order: the answers and the limiter after them. -/
def run (r : RateLimiter c) : List (Request × Nat) → List Bool × RateLimiter c
  | [] => ([], r)
  | q :: qs => ((r.step q.1 q.2).1 :: ((r.step q.1 q.2).2.run qs).1, ((r.step q.1 q.2).2.run qs).2)

@[simp] theorem run_cons_fst (r : RateLimiter c) (q : Request × Nat) (qs : List (Request × Nat)) :
    (r.run (q :: qs)).1 = (r.step q.1 q.2).1 :: ((r.step q.1 q.2).2.run qs).1 := rfl

@[simp] theorem run_cons_snd (r : RateLimiter c) (q : Request × Nat) (qs : List (Request × Nat)) :
    (r.run (q :: qs)).2 = ((r.step q.1 q.2).2.run qs).2 := rfl

@[simp] theorem run_nil (r : RateLimiter c) : r.run [] = ([], r) := rfl

@[simp] theorem length_run (r : RateLimiter c) (qs : List (Request × Nat)) :
    (r.run qs).1.length = qs.length := by
  induction qs generalizing r <;> simp [*]

theorem run_append (r : RateLimiter c) (xs ys : List (Request × Nat)) :
    (r.run (xs ++ ys)).1 = (r.run xs).1 ++ ((r.run xs).2.run ys).1 ∧
      (r.run (xs ++ ys)).2 = ((r.run xs).2.run ys).2 := by
  induction xs generalizing r with
  | nil => exact ⟨rfl, rfl⟩
  | cons x xs ih =>
    obtain ⟨h1, h2⟩ := ih (r.step x.1 x.2).2
    simp only [List.cons_append, run_cons_fst, run_cons_snd, h1, h2, and_self]

/-- The bucket the limiter holds for the identifier of a request. -/
def lookup (r : RateLimiter c) : Request → Option (TokenBucket c)
  | .mnode pk => r.mnodeBuckets.lookup pk
  | .client ip => r.clientBuckets.lookup ip

/-! ## What one call does -/

/-- A call is answered from the caller's own bucket, or a full one if it has none. -/
theorem step_fst (r : RateLimiter c) (q : Request) (now : Nat) :
    (r.step q now).1 = (((r.lookup q).getD (.full c now)).query now).1 := by
  cases q with
  | mnode pk => rfl
  | client ip => simp only [step, shouldRateLimitClient, Buckets.query, Buckets.bucketOf,
      lookup_evictFor_self, lookup]

/-- A call of an identifier without a bucket is admitted. -/
theorem step_fst_of_lookup_none (r : RateLimiter c) {q : Request} (h : r.lookup q = none)
    (now : Nat) : (r.step q now).1 = false := by
  rw [step_fst, h, Option.getD_none, TokenBucket.query_full]

/-- The caller's bucket is the one it was answered from, updated. -/
theorem lookup_step_self (r : RateLimiter c) (q : Request) (now : Nat) :
    (r.step q now).2.lookup q = some (((r.lookup q).getD (.full c now)).query now).2 := by
  cases q with
  | mnode pk => exact Buckets.lookup_query_self _ _ _
  | client ip =>
    simp only [step, shouldRateLimitClient, lookup, Buckets.lookup_query_self, Buckets.bucketOf,
      lookup_evictFor_self]

/-- **The frame of a call**: another node's bucket is left as it was; another client's is
left as it was or evicted. -/
theorem lookup_step_ne (r : RateLimiter c) {q q' : Request} (h : q ≠ q') (now : Nat) :
    (r.step q' now).2.lookup q = r.lookup q ∨
      (∃ ip, q = .client ip) ∧ (r.step q' now).2.lookup q = none := by
  cases q' with
  | mnode pk' =>
    cases q with
    | mnode pk => exact .inl (Buckets.lookup_query_ne _ (fun e : pk = pk' => h (by rw [e])) _)
    | client ip => exact .inl rfl
  | client ip' =>
    cases q with
    | mnode pk => exact .inl rfl
    | client ip =>
      simp only [step, shouldRateLimitClient, lookup,
        Buckets.lookup_query_ne _ (fun e : ip = ip' => h (by rw [e]))]
      exact (lookup_evictFor _ ip' ip).imp id fun hn => ⟨⟨ip, rfl⟩, hn⟩

theorem mnodeBuckets_lookup_step_ne (r : RateLimiter c) {pk : LegacyPubkey} {q : Request}
    (h : q ≠ .mnode pk) (now : Nat) :
    (r.step q now).2.mnodeBuckets.lookup pk = r.mnodeBuckets.lookup pk := by
  rcases lookup_step_ne r (Ne.symm h) now with h' | ⟨⟨ip, hip⟩, -⟩
  · exact h'
  · cases hip

/-! ## Runs -/

/-- The answers a run gives to the calls of `q`, in order. -/
def answersOf (q : Request) (qs : List (Request × Nat)) (as : List Bool) : List Bool :=
  ((as.zip qs).filter fun x => x.2.1 = q).map Prod.fst

/-- The instants of the calls of `q` in a run. -/
def timesOf (q : Request) (qs : List (Request × Nat)) : List Nat :=
  (qs.filter fun x => x.1 = q).map Prod.snd

section Projection
variable {q q' : Request} {t : Nat} {qs : List (Request × Nat)} {a : Bool} {as : List Bool}

theorem answersOf_cons_self : answersOf q ((q, t) :: qs) (a :: as) = a :: answersOf q qs as := by
  simp [answersOf, List.filter_cons]

theorem answersOf_cons_ne (h : q' ≠ q) : answersOf q ((q', t) :: qs) (a :: as) = answersOf q qs as := by
  simp [answersOf, List.filter_cons, h]

theorem timesOf_cons_self : timesOf q ((q, t) :: qs) = t :: timesOf q qs := by
  simp [timesOf, List.filter_cons]

theorem timesOf_cons_ne (h : q' ≠ q) : timesOf q ((q', t) :: qs) = timesOf q qs := by
  simp [timesOf, List.filter_cons, h]

theorem chain_timesOf (h : (qs.map Prod.snd).Chain' (· ≤ ·)) : (timesOf q qs).Chain' (· ≤ ·) :=
  h.sublist ((List.filter_sublist _).map _)

theorem mem_timesOf {u : Nat} (h : u ∈ timesOf q qs) : ∃ x ∈ qs, x.2 = u := by
  obtain ⟨x, hx, rfl⟩ := List.mem_map.mp h
  exact ⟨x, List.mem_of_mem_filter hx, rfl⟩

end Projection

/-- **Each node has its own bucket**: in every run of the limiter, however the calls of
other nodes and of clients are interleaved with a node's, the answers to the node are those
of its bucket over the instants of its own calls. -/
theorem answersOf_mnode (r : RateLimiter c) (pk : LegacyPubkey) (qs : List (Request × Nat)) :
    answersOf (.mnode pk) qs (r.run qs).1 =
      ((r.mnodeBuckets.bucketOf pk ((timesOf (.mnode pk) qs).headD 0)).run
        (timesOf (.mnode pk) qs)).1 := by
  induction qs generalizing r with
  | nil => rfl
  | cons x qs ih =>
    obtain ⟨q, t⟩ := x
    rw [run_cons_fst]
    by_cases hq : q = .mnode pk
    · subst hq
      have hl : (r.step (.mnode pk) t).2.mnodeBuckets.lookup pk =
          some (((r.mnodeBuckets.lookup pk).getD (.full c t)).query t).2 :=
        lookup_step_self r (.mnode pk) t
      rw [answersOf_cons_self, timesOf_cons_self, ih, List.headD_cons, TokenBucket.run_cons_fst,
        Buckets.bucketOf, hl, Option.getD_some, step_fst]
      rfl
    · rw [answersOf_cons_ne hq, timesOf_cons_ne hq, ih, Buckets.bucketOf, Buckets.bucketOf,
        mnodeBuckets_lookup_step_ne r hq]

/-- **Monotonicity for nodes** (§4.5), in every run of the limiter: within a window of `W`
microseconds, at non-decreasing instants, a node's calls are admitted at most
`BUCKET_SIZE + W · TOKEN_RATE` times (in millionths), whatever the other calls. -/
theorem count_mnode_le (r : RateLimiter c) (pk : LegacyPubkey) {qs : List (Request × Nat)}
    {t₀ W : Nat} (hs : (qs.map Prod.snd).Chain' (· ≤ ·)) (hw : ∀ x ∈ qs, t₀ ≤ x.2 ∧ x.2 ≤ t₀ + W) :
    (answersOf (.mnode pk) qs (r.run qs).1).count false * usPerSecond ≤
      c.capacity + W * c.tokenRate := by
  have hin : ∀ u ∈ timesOf (.mnode pk) qs, t₀ ≤ u ∧ u ≤ t₀ + W := fun u hu => by
    obtain ⟨x, hx, rfl⟩ := mem_timesOf hu
    exact hw x hx
  have hts := chain_timesOf (q := .mnode pk) hs
  rw [answersOf_mnode]
  generalize timesOf (.mnode pk) qs = ts at hin hts
  cases ts with
  | nil => simp
  | cons t₁ ts =>
    have h₁ := hin t₁ (List.mem_cons_self _ _)
    exact TokenBucket.run_count_false_le _ ‹_› fun u hu => by
      have := hin u (List.mem_cons_of_mem _ hu); omega

theorem count_mnode_le_burstAtZero :
    (burstAtZero.map Prod.snd).Chain' (· ≤ ·) ∧ (∀ x ∈ burstAtZero, 0 ≤ x.2 ∧ x.2 ≤ 0 + 0) ∧
      (answersOf (.mnode zeroNode) burstAtZero ((init twoTokenLimits).run burstAtZero).1).count
          false * usPerSecond ≤ twoTokenLimits.capacity + 0 * twoTokenLimits.tokenRate :=
  ⟨.cons le_rfl (.cons le_rfl .nil), by decide,
    @count_mnode_le _ (init twoTokenLimits) zeroNode burstAtZero 0 0
      (.cons le_rfl (.cons le_rfl .nil)) (by decide)⟩

/-- **A new node is throttled only when it breaks the bound**: in every run of the limiter,
the calls of a node without a bucket are all admitted exactly when they conform to the
limits. -/
theorem mnode_all_false_iff (r : RateLimiter c) {pk : LegacyPubkey}
    (hnew : r.mnodeBuckets.lookup pk = none) {qs : List (Request × Nat)}
    (hs : (qs.map Prod.snd).Chain' (· ≤ ·)) :
    (∀ a ∈ answersOf (.mnode pk) qs (r.run qs).1, a = false) ↔
      TokenBucket.Conforms c (timesOf (.mnode pk) qs) := by
  have hts := chain_timesOf (q := .mnode pk) hs
  rw [answersOf_mnode]
  generalize timesOf (.mnode pk) qs = ts at hts ⊢
  cases ts with
  | nil => simp [TokenBucket.Conforms]
  | cons t₁ ts =>
    rw [List.headD_cons, Buckets.bucketOf, hnew, Option.getD_none]
    exact TokenBucket.run_full_all_false_iff ‹_›

theorem mnode_all_false_iff_burstAtZero :
    (init twoTokenLimits).mnodeBuckets.lookup zeroNode = none ∧
      (burstAtZero.map Prod.snd).Chain' (· ≤ ·) ∧
      ((∀ a ∈ answersOf (.mnode zeroNode) burstAtZero ((init twoTokenLimits).run burstAtZero).1,
          a = false) ↔ TokenBucket.Conforms twoTokenLimits (timesOf (.mnode zeroNode) burstAtZero)) :=
  ⟨rfl, .cons le_rfl (.cons le_rfl .nil),
    @mnode_all_false_iff _ (init twoTokenLimits) zeroNode rfl burstAtZero
      (.cons le_rfl (.cons le_rfl .nil))⟩

/-- A run of one identifier's calls alone is answered as its bucket answers. -/
theorem run_solo (r : RateLimiter c) (q : Request) (ts : List Nat) :
    (r.run (ts.map fun t => (q, t))).1 =
      (((r.lookup q).getD (.full c (ts.headD 0))).run ts).1 := by
  induction ts generalizing r with
  | nil => rfl
  | cons t ts ih =>
    rw [List.map_cons, run_cons_fst, ih, lookup_step_self, Option.getD_some, step_fst]
    rfl

/-- A run without calls of `q` leaves the bucket of `q` as it was, or evicts it. -/
theorem lookup_run_of_ne (r : RateLimiter c) (q : Request) {qs : List (Request × Nat)}
    (hq : ∀ x ∈ qs, x.1 ≠ q) : (r.run qs).2.lookup q = r.lookup q ∨ (r.run qs).2.lookup q = none := by
  induction qs generalizing r with
  | nil => exact .inl rfl
  | cons x qs ih =>
    rw [run_cons_snd]
    have hstep := lookup_step_ne r (Ne.symm (hq x (List.mem_cons_self _ _))) x.2
    rcases ih (r.step x.1 x.2).2 fun y hy => hq y (List.mem_cons_of_mem _ hy) with h | h
    · rw [h]; exact hstep.imp_right And.right
    · exact .inr h

theorem lookup_init (q : Request) : (init c).lookup q = none := by
  cases q <;> rfl

/-- A new limiter holds no bucket for an identifier it was never called with. -/
theorem lookup_run_init_of_ne {q : Request} {qs : List (Request × Nat)}
    (hq : ∀ x ∈ qs, x.1 ≠ q) : ((init c).run qs).2.lookup q = none :=
  (lookup_run_of_ne (init c) q hq).elim (fun h => h.trans (lookup_init q)) id

/-- **Liveness** (§4.5), for nodes and clients alike: after a quiet period of at least
`BUCKET_SIZE / TOKEN_RATE` seconds, whatever other calls came in meanwhile, the next call of
the same identifier is admitted. -/
theorem run_step_of_quiet (r : RateLimiter c) (q : Request) {qs : List (Request × Nat)}
    {now : Nat} (hq : ∀ x ∈ qs, x.1 ≠ q)
    (hquiet : ∀ b, r.lookup q = some b → c.capacity ≤ (now - b.last) * c.tokenRate) :
    ((r.run qs).2.step q now).1 = false := by
  rcases lookup_run_of_ne r q hq with h | h
  · cases hb : r.lookup q with
    | none => exact step_fst_of_lookup_none _ (h.trans hb) now
    | some b => rw [step_fst, h, hb]; exact (TokenBucket.query_of_quiet b (hquiet b hb)).2
  · exact step_fst_of_lookup_none _ h now

theorem run_step_of_quiet_two_seconds :
    (∀ x ∈ [(Request.client 1, 1000000)], x.1 ≠ .mnode zeroNode) ∧
      (∀ b, ((init twoTokenLimits).shouldRateLimit zeroNode 0).2.lookup (.mnode zeroNode) = some b →
        twoTokenLimits.capacity ≤ (2000000 - b.last) * twoTokenLimits.tokenRate) ∧
      ((((init twoTokenLimits).shouldRateLimit zeroNode 0).2.run [(.client 1, 1000000)]).2.step
        (.mnode zeroNode) 2000000).1 = false := by
  have hquiet : ∀ b, ((init twoTokenLimits).shouldRateLimit zeroNode 0).2.lookup
      (.mnode zeroNode) = some b →
      twoTokenLimits.capacity ≤ (2000000 - b.last) * twoTokenLimits.tokenRate := fun b hb => by
    obtain rfl := Option.some.inj
      ((lookup_step_self (init twoTokenLimits) (.mnode zeroNode) 0).symm.trans hb)
    rw [TokenBucket.query_last]
    decide
  exact ⟨by decide, hquiet, run_step_of_quiet _ _ (by decide) hquiet⟩

/-- **A new client is always admitted** (§4.4): eviction makes room for it, and its bucket
is new. -/
theorem shouldRateLimitClient_new (r : RateLimiter c) {ip : UInt32} (hip : ip ∉ r.clientBuckets)
    (now : Nat) : (r.shouldRateLimitClient ip now).1 = false :=
  step_fst_of_lookup_none r (q := .client ip) (AList.lookup_eq_none.mpr hip) now

theorem shouldRateLimitClient_new_first :
    (1 : UInt32) ∉ (init twoTokenLimits).clientBuckets ∧
      ((init twoTokenLimits).shouldRateLimitClient 1 0).1 = false :=
  ⟨by decide, shouldRateLimitClient_new _ (by decide) 0⟩

/-- The client table after a new client: the client in front of the others, short of one
other client when the table was full. -/
theorem keys_shouldRateLimitClient_new (r : RateLimiter c) {ip : UInt32}
    (hip : ip ∉ r.clientBuckets) (now : Nat) :
    (r.shouldRateLimitClient ip now).2.clientBuckets.keys = ip :: r.clientBuckets.keys ∧
      r.clientBuckets.keys.length < c.maxClients ∨
    ∃ v ∈ r.clientBuckets, lruClient r.clientBuckets = some v ∧
      (r.shouldRateLimitClient ip now).2.clientBuckets.keys = ip :: r.clientBuckets.keys.erase v ∧
      c.maxClients ≤ r.clientBuckets.keys.length := by
  have hkeys : ∀ t : Buckets UInt32 c, ip ∉ t →
      (t.insert ip ((t.bucketOf ip now).query now).2).keys = ip :: t.keys := fun t ht => by
    rw [AList.keys_insert, List.erase_of_not_mem fun h => ht (AList.mem_keys.mpr h)]
  simp only [shouldRateLimitClient, Buckets.query]
  rcases evictFor_cases r.clientBuckets ip with ⟨he, hip' | hlt⟩ | ⟨v, hv, hlru, he, -, hM⟩
  · exact absurd hip' hip
  · exact .inl ⟨by rw [he, hkeys _ hip], hlt⟩
  · refine .inr ⟨v, hv, hlru, ?_, hM⟩
    rw [he, hkeys _ fun h => hip (AList.mem_erase.mp h).2, AList.keys_erase]

/-- **Eviction** (§4.4, §4.5): at a full client table, a new client is admitted and exactly
one client loses its bucket, one whose bucket was updated no later than any other's; every
other client keeps its bucket. -/
theorem shouldRateLimitClient_evict (r : RateLimiter c) {ip : UInt32}
    (hip : ip ∉ r.clientBuckets) (hfull : c.maxClients ≤ r.clientBuckets.keys.length)
    (now : Nat) :
    (r.shouldRateLimitClient ip now).1 = false ∧ ∃ v ∈ r.clientBuckets,
      (r.shouldRateLimitClient ip now).2.clientBuckets.keys = ip :: r.clientBuckets.keys.erase v ∧
      (∀ u, u ≠ ip → u ≠ v →
        (r.shouldRateLimitClient ip now).2.clientBuckets.lookup u = r.clientBuckets.lookup u) ∧
      ∃ bv, r.clientBuckets.lookup v = some bv ∧
        ∀ u bu, r.clientBuckets.lookup u = some bu → bv.last ≤ bu.last := by
  refine ⟨step_fst_of_lookup_none r (q := .client ip) (AList.lookup_eq_none.mpr hip) now, ?_⟩
  rcases evictFor_cases r.clientBuckets ip with ⟨-, hip' | hlt⟩ | ⟨v, hv, hlru, he, -⟩
  · exact absurd hip' hip
  · omega
  refine ⟨v, hv, ?_, fun u hu huv => ?_, lruClient_spec hlru⟩
  · simp only [shouldRateLimitClient, Buckets.query, he, AList.keys_insert, AList.keys_erase]
    rw [List.erase_of_not_mem fun h => hip (AList.mem_keys.mpr (List.mem_of_mem_erase h))]
  · simp only [shouldRateLimitClient, Buckets.lookup_query_ne _ hu, he, AList.lookup_erase_ne huv]

theorem shouldRateLimitClient_evict_second :
    (2 : UInt32) ∉ ((init twoTokenLimits).shouldRateLimitClient 1 0).2.clientBuckets ∧
      twoTokenLimits.maxClients ≤
        ((init twoTokenLimits).shouldRateLimitClient 1 0).2.clientBuckets.keys.length ∧
      ((((init twoTokenLimits).shouldRateLimitClient 1 0).2.shouldRateLimitClient 2 0).1 = false ∧
        ∃ v ∈ ((init twoTokenLimits).shouldRateLimitClient 1 0).2.clientBuckets,
          (((init twoTokenLimits).shouldRateLimitClient 1 0).2.shouldRateLimitClient 2 0).2.clientBuckets.keys =
            2 :: ((init twoTokenLimits).shouldRateLimitClient 1 0).2.clientBuckets.keys.erase v ∧
          (∀ u, u ≠ 2 → u ≠ v →
            (((init twoTokenLimits).shouldRateLimitClient 1 0).2.shouldRateLimitClient 2 0).2.clientBuckets.lookup u =
              ((init twoTokenLimits).shouldRateLimitClient 1 0).2.clientBuckets.lookup u) ∧
          ∃ bv, ((init twoTokenLimits).shouldRateLimitClient 1 0).2.clientBuckets.lookup v = some bv ∧
            ∀ u bu, ((init twoTokenLimits).shouldRateLimitClient 1 0).2.clientBuckets.lookup u = some bu →
              bv.last ≤ bu.last) :=
  ⟨by decide, by decide, shouldRateLimitClient_evict _ (by decide) (by decide) 0⟩

/-- Calls of distinct clients the limiter holds no bucket for are all admitted. -/
theorem run_new_clients_admitted (r : RateLimiter c) {calls : List (UInt32 × Nat)}
    (hnd : (calls.map Prod.fst).Nodup) (hnew : ∀ x ∈ calls, r.lookup (.client x.1) = none) :
    ∀ a ∈ (r.run (calls.map fun x => (.client x.1, x.2))).1, a = false := by
  induction calls generalizing r with
  | nil => simp
  | cons x xs ih =>
    obtain ⟨hx, hnd⟩ := List.nodup_cons.mp hnd
    rw [List.map_cons, run_cons_fst]
    refine List.forall_mem_cons.mpr ⟨step_fst_of_lookup_none r (hnew x (List.mem_cons_self _ _))
      x.2, ih _ hnd fun y hy => ?_⟩
    have hne : Request.client y.1 ≠ .client x.1 := fun h =>
      hx (Request.client.inj h ▸ List.mem_map_of_mem Prod.fst hy)
    rcases lookup_step_ne r hne x.2 with h | ⟨-, h⟩
    · rw [h]; exact hnew y (List.mem_cons_of_mem _ hy)
    · exact h

/-- A new client at a table with room goes in front of it, with a new bucket. -/
theorem entries_shouldRateLimitClient_room (r : RateLimiter c) {ip : UInt32}
    (hip : ip ∉ r.clientBuckets) (hroom : r.clientBuckets.keys.length < c.maxClients)
    (now : Nat) :
    (r.shouldRateLimitClient ip now).2.clientBuckets.entries =
      ⟨ip, ((TokenBucket.full c now).query now).2⟩ :: r.clientBuckets.entries := by
  rcases evictFor_cases r.clientBuckets ip with ⟨he, -⟩ | ⟨-, -, -, -, -, hM⟩
  · simp only [shouldRateLimitClient, Buckets.query, Buckets.bucketOf, he,
      AList.lookup_eq_none.mpr hip, Option.getD_none, AList.insert_entries_of_neg hip]
  · omega

/-- **Runs of new clients that fit**: each call puts a new bucket in front of the client table,
so the table lists them from the last called on. -/
theorem entries_run_new_clients (r : RateLimiter c) {calls : List (UInt32 × Nat)}
    (hnd : (calls.map Prod.fst).Nodup) (hnew : ∀ x ∈ calls, x.1 ∉ r.clientBuckets)
    (hroom : r.clientBuckets.keys.length + calls.length ≤ c.maxClients) :
    (r.run (calls.map fun x => (.client x.1, x.2))).2.clientBuckets.entries.reverse =
      r.clientBuckets.entries.reverse ++
        calls.map fun x => ⟨x.1, ((TokenBucket.full c x.2).query x.2).2⟩ := by
  induction calls generalizing r with
  | nil => simp
  | cons x xs ih =>
    obtain ⟨hx, hnd⟩ := List.nodup_cons.mp hnd
    rw [List.length_cons] at hroom
    have he := entries_shouldRateLimitClient_room r (hnew x (List.mem_cons_self _ _))
      (by omega) x.2
    have hk : (r.shouldRateLimitClient x.1 x.2).2.clientBuckets.keys =
        x.1 :: r.clientBuckets.keys := by
      simp only [AList.keys, he, List.keys_cons]
    rw [List.map_cons, run_cons_snd]
    refine (ih (r.shouldRateLimitClient x.1 x.2).2 hnd (fun y hy hy₁ => ?_)
      (by rw [hk, List.length_cons]; omega)).trans ?_
    · rw [AList.mem_keys, hk, List.mem_cons, ← AList.mem_keys] at hy₁
      rcases hy₁ with h | h
      · exact hx (h ▸ List.mem_map_of_mem Prod.fst hy)
      · exact hnew y (List.mem_cons_of_mem _ hy) h
    · simp only [step, he, List.reverse_cons, List.append_assoc, List.map_cons,
        List.singleton_append]

theorem argmin_map {α β γ : Type} [LinearOrder γ] (f : β → γ) (g : α → β) (l : List α) :
    (l.map g).argmin f = (l.argmin (f ∘ g)).map g := by
  induction l with
  | nil => rfl
  | cons a l ih =>
    rw [List.map_cons, List.argmin_cons, List.argmin_cons, ih]
    cases l.argmin (f ∘ g) with
    | none => rfl
    | some b => simp only [Option.map_some', Function.comp_apply]; split_ifs <;> rfl

/-- **`MAX_CLIENTS + 1` new clients** (§8): from a new limiter, the calls of
`MAX_CLIENTS + 1` distinct clients, at any instants, are all admitted, and afterwards exactly
one of the clients has lost its bucket: the least recently used of the first `MAX_CLIENTS`,
the first of them called at the earliest instant. -/
theorem run_maxClients_succ (pre : List (UInt32 × Nat)) (last : UInt32 × Nat)
    (hnd : ((pre ++ [last]).map Prod.fst).Nodup) (hlen : pre.length = c.maxClients) :
    (∀ a ∈ ((init c).run ((pre ++ [last]).map fun x => (.client x.1, x.2))).1, a = false) ∧
    ∃ v ∈ pre.map Prod.fst, (pre.argmin Prod.snd).map Prod.fst = some v ∧
      ∀ u ∈ (pre ++ [last]).map Prod.fst,
        u ∈ ((init c).run ((pre ++ [last]).map fun x => (.client x.1, x.2))).2.clientBuckets ↔
          u ≠ v := by
  refine ⟨run_new_clients_admitted (init c) hnd fun x _ => lookup_init _, ?_⟩
  rw [List.map_append, List.nodup_append] at hnd
  obtain ⟨hpre, -, hdisj⟩ := hnd
  have hlast : last.1 ∉ pre.map Prod.fst := fun h => hdisj h (List.mem_singleton_self _)
  have hrev := entries_run_new_clients (init c) hpre (fun x _ => AList.not_mem_empty x.1)
    (by simp [init, AList.keys_empty, hlen])
  simp only [List.map_append, List.map_cons, List.map_nil]
  rw [(run_append _ _ _).2, run_cons_snd, run_nil]
  generalize (init c).run (pre.map fun x => (.client x.1, x.2)) = rp at hrev
  simp only [init, AList.empty_entries, List.reverse_nil, List.nil_append] at hrev
  have hkeys : rp.2.clientBuckets.keys = (pre.map Prod.fst).reverse := by
    rw [AList.keys, List.keys, ← List.reverse_reverse rp.2.clientBuckets.entries, hrev]
    simp [Function.comp_def]
  have hlru : lruClient rp.2.clientBuckets = (pre.argmin Prod.snd).map Prod.fst := by
    rw [lruClient, hrev, argmin_map, Option.map_map]
    simp only [Function.comp_def, TokenBucket.query_last]
  have hnew : last.1 ∉ rp.2.clientBuckets := by
    rw [AList.mem_keys, hkeys, List.mem_reverse]; exact hlast
  rcases keys_shouldRateLimitClient_new rp.2 hnew last.2 with ⟨-, hlt⟩ | ⟨v, hv, hv', hk, -⟩
  · rw [hkeys, List.length_reverse, List.length_map, hlen] at hlt
    exact absurd hlt (lt_irrefl _)
  have hvpre : v ∈ pre.map Prod.fst := by
    rw [AList.mem_keys, hkeys, List.mem_reverse] at hv; exact hv
  refine ⟨v, hvpre, hlru ▸ hv', fun u hu => ?_⟩
  rw [AList.mem_keys, step, hk, hkeys, List.mem_cons,
    (List.nodup_reverse.mpr hpre).mem_erase_iff, List.mem_reverse]
  rcases List.mem_append.mp hu with hu | hu
  · exact ⟨fun h => h.elim (fun h => h ▸ fun he => hlast (he ▸ hvpre)) And.left,
      fun h => .inr ⟨h, hu⟩⟩
  · obtain rfl := List.mem_singleton.mp hu
    exact ⟨fun _ he => hlast (he ▸ hvpre), fun _ => .inl rfl⟩

/-- Limits of two tokens a bucket, refilled at one token a second, and two clients. -/
def twoClientLimits : RateLimits := ⟨2, 1, 2, by decide, by decide⟩

theorem run_maxClients_succ_three_clients :
    (([((1 : UInt32), 0), (2, 0)] ++ [((3 : UInt32), 0)]).map Prod.fst).Nodup ∧
      [((1 : UInt32), 0), (2, 0)].length = twoClientLimits.maxClients ∧
      ((∀ a ∈ ((init twoClientLimits).run (([((1 : UInt32), 0), (2, 0)] ++ [((3 : UInt32), 0)]).map
          fun x : UInt32 × Nat => (.client x.1, x.2))).1, a = false) ∧
        ∃ v ∈ [((1 : UInt32), 0), (2, 0)].map Prod.fst,
          ([((1 : UInt32), 0), (2, 0)].argmin Prod.snd).map Prod.fst = some v ∧
          ∀ u ∈ ([((1 : UInt32), 0), (2, 0)] ++ [((3 : UInt32), 0)]).map Prod.fst,
            u ∈ ((init twoClientLimits).run (([((1 : UInt32), 0), (2, 0)] ++
              [((3 : UInt32), 0)]).map fun x : UInt32 × Nat => (.client x.1, x.2))).2.clientBuckets ↔
              u ≠ v) :=
  ⟨by decide, rfl, run_maxClients_succ _ _ (by decide) rfl⟩

example : ([((1 : UInt32), 0), (2, 0)].argmin Prod.snd).map Prod.fst = some 1 := by decide

end RateLimiter

end Beldex
