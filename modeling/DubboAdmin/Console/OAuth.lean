import DubboAdmin.Lib.LinkedMap
import DubboAdmin.Resource

/-!
# OAuth transactions

`oauthTransactionStore` of `pkg/console/auth/service.go` holds the transactions of logins that have
begun, by their states and in a queue by their expiry. `Put` drops the expired ones from the front
of the queue first, and `Consume` takes a transaction out and returns it where it has not expired.

`TransactionInv` relates the store to the calls that were made. Every call keeps it where the clock
does not go back, so that a transaction is consumed at most once and within its time
(`transactions_single_use`).
-/

namespace DubboAdmin.OAuth

open LinkedMap

/-! ## The store -/

/-- A login that has begun. -/
structure OAuthTransaction where
  providerID : String
  state : String
  codeVerifier : String
  nonce : String
deriving DecidableEq, Repr

/-- `storedOAuthTransaction`. Times are in nanoseconds. -/
structure StoredOAuthTransaction where
  transaction : OAuthTransaction
  expiresAt : ℤ
deriving DecidableEq, Repr

/-- The key in `items`. -/
def StoredOAuthTransaction.state (stored : StoredOAuthTransaction) : String :=
  stored.transaction.state

/-- `oauthTransactionStore`. The queue is `expiryQueue`, and the clock an argument of each call. -/
structure OAuthTransactionStore extends LinkedMap String StoredOAuthTransaction where
  ttl : ℤ
  capacity : ℤ

def errTransactionStoreFull : Failure := .err "OAuth transaction store is full"

namespace OAuthTransactionStore

def newOAuthTransactionStore (ttl capacity : ℤ) : OAuthTransactionStore :=
  { (.empty : LinkedMap String StoredOAuthTransaction) with ttl := ttl, capacity := capacity }

def remove (s : OAuthTransactionStore) (element : Cell StoredOAuthTransaction) :
    OAuthTransactionStore :=
  { s with toLinkedMap := s.toLinkedMap.remove StoredOAuthTransaction.state element }

/-- `expiresAt` is not after the time. -/
def expired (now : ℤ) (stored : StoredOAuthTransaction) : Bool := !decide (now < stored.expiresAt)

/-- `removeExpired`. Each round takes an element, so that there are no more rounds than elements. -/
def removeExpired (s : OAuthTransactionStore) (now : ℤ) : OAuthTransactionStore :=
  { s with
    toLinkedMap := removeWhile StoredOAuthTransaction.state (expired now) s.queue.length
      s.toLinkedMap }

/-- The transaction that `Put` replaces is removed. -/
def removeExisting (s : OAuthTransactionStore) (state : String) : OAuthTransactionStore :=
  match s.items.lookup state with
  | some existing => s.remove existing
  | none => s

def put (s : OAuthTransactionStore) (transaction : OAuthTransaction) (now : ℤ) :
    Except Failure Unit × OAuthTransactionStore :=
  let s := (s.removeExpired now).removeExisting transaction.state
  if s.capacity ≤ s.items.entries.length then (.error errTransactionStoreFull, s)
  else
    (.ok (), { s with
      toLinkedMap := s.pushBack StoredOAuthTransaction.state ⟨transaction, now + s.ttl⟩ })

def consume (s : OAuthTransactionStore) (state : String) (now : ℤ) :
    Option OAuthTransaction × OAuthTransactionStore :=
  match s.items.lookup state with
  | none => (none, s)
  | some element =>
    if now < element.value.expiresAt then (some element.value.transaction, s.remove element)
    else (none, s.remove element)

end OAuthTransactionStore

/-! ## Calls -/

/-- A call of the store, with the time that it reads. -/
inductive Call where
  | put (transaction : OAuthTransaction) (now : ℤ)
  | consume (state : String) (now : ℤ)
deriving DecidableEq, Repr

/-- The time of a call. -/
def Call.now : Call → ℤ
  | .put _ now | .consume _ now => now

/-- The state that a call is about. -/
def Call.state : Call → String
  | .put transaction _ => transaction.state
  | .consume state _ => state

/-- The store after a call. -/
def OAuthTransactionStore.call (s : OAuthTransactionStore) : Call → OAuthTransactionStore
  | .put transaction now => (s.put transaction now).2
  | .consume state now => (s.consume state now).2

/-- A new store after calls. -/
def storeAfter (ttl capacity : ℤ) (calls : List Call) : OAuthTransactionStore :=
  calls.foldl OAuthTransactionStore.call (.newOAuthTransactionStore ttl capacity)

/-- The latest call about the state was the `Put` of the transaction at the time. -/
def LatestPut (calls : List Call) (transaction : OAuthTransaction) (time : ℤ) : Prop :=
  ∃ before since, calls = before ++ .put transaction time :: since ∧
    ∀ call ∈ since, call.state ≠ transaction.state

/-- The map and the queue hold the same entries, in the order of their expiry and within the
capacity. -/
structure Consistent (s : OAuthTransactionStore) : Prop where
  linked : s.Linked StoredOAuthTransaction.state
  ordered : s.queue.Pairwise fun c c' => c.value.expiresAt ≤ c'.value.expiresAt
  /-- There are at most as many entries as the capacity says. -/
  bounded : (s.queue.length : ℤ) ≤ s.capacity

/-- What holds of the store after calls. -/
structure TransactionInv (ttl capacity : ℤ) (calls : List Call) (s : OAuthTransactionStore) : Prop
    extends Consistent s where
  ttl_eq : s.ttl = ttl
  capacity_eq : s.capacity = capacity
  /-- Each transaction is the one of the latest call about its state. -/
  latest : ∀ c ∈ s.queue, ∃ time, LatestPut calls c.value.transaction time ∧
    c.value.expiresAt = time + ttl

theorem LatestPut.mem {calls : List Call} {transaction : OAuthTransaction} {time : ℤ}
    (h : LatestPut calls transaction time) : .put transaction time ∈ calls := by
  obtain ⟨before, since, rfl, -⟩ := h
  exact List.mem_append_right _ List.mem_cons_self

theorem LatestPut.concat {calls : List Call} {transaction : OAuthTransaction} {time : ℤ}
    (h : LatestPut calls transaction time) {call : Call} (hcall : call.state ≠ transaction.state) :
    LatestPut (calls ++ [call]) transaction time := by
  obtain ⟨before, since, rfl, hsince⟩ := h
  refine ⟨before, since ++ [call], by rw [List.append_assoc, List.cons_append], fun c hc => ?_⟩
  rcases List.mem_append.mp hc with hc | hc
  · exact hsince c hc
  · rwa [List.mem_singleton.mp hc]

theorem latestPut_concat (calls : List Call) (transaction : OAuthTransaction) (time : ℤ) :
    LatestPut (calls ++ [.put transaction time]) transaction time :=
  ⟨calls, [], rfl, nofun⟩

/-! ## Steps -/

section Steps

variable {s : OAuthTransactionStore} {c : Cell StoredOAuthTransaction} {now : ℤ}

theorem Consistent.remove (h : Consistent s) (hc : c ∈ s.queue) : Consistent (s.remove c) where
  linked := h.linked.remove hc
  ordered := h.ordered.sublist List.filter_sublist
  bounded := by
    have hlength : (s.remove c).queue.length ≤ s.queue.length := List.length_filter_le _ _
    have hbounded := h.bounded
    show ((s.remove c).queue.length : ℤ) ≤ s.capacity
    omega

theorem mem_queue_remove (h : Consistent s) (hc : c ∈ s.queue) {c' : Cell StoredOAuthTransaction} :
    c' ∈ (s.remove c).queue ↔ c' ∈ s.queue ∧ c' ≠ c :=
  mem_remove h.linked.ptrs hc

theorem expired_eq_false {stored : StoredOAuthTransaction} :
    OAuthTransactionStore.expired now stored = false ↔ now < stored.expiresAt := by
  simp [OAuthTransactionStore.expired]

theorem queue_removeExpired (h : Consistent s) (now : ℤ) :
    (s.removeExpired now).Linked StoredOAuthTransaction.state ∧ (s.removeExpired now).queue =
      s.queue.dropWhile fun c => OAuthTransactionStore.expired now c.value :=
  removeWhile_spec _ h.linked le_rfl

theorem mem_queue_removeExpired (h : Consistent s) :
    c ∈ (s.removeExpired now).queue ↔ c ∈ s.queue ∧ now < c.value.expiresAt := by
  rw [(queue_removeExpired h now).2, mem_dropWhile_iff, expired_eq_false]
  refine h.ordered.imp fun {c c'} hle hexpired => ?_
  simp only [OAuthTransactionStore.expired, Bool.not_eq_eq_eq_not, Bool.not_true,
    decide_eq_false_iff_not, not_lt] at hexpired ⊢
  exact hle.trans hexpired

theorem Consistent.removeExpired (h : Consistent s) (now : ℤ) :
    Consistent (s.removeExpired now) := by
  obtain ⟨hlinked, hqueue⟩ := queue_removeExpired h now
  have hsublist : (s.removeExpired now).queue.Sublist s.queue := by
    rw [hqueue]
    exact List.dropWhile_sublist _
  refine ⟨hlinked, h.ordered.sublist hsublist, ?_⟩
  have hlength := hsublist.length_le
  have hbounded := h.bounded
  show ((s.removeExpired now).queue.length : ℤ) ≤ s.capacity
  omega

/-- Without the element of the state, all others stay. -/
theorem removeExisting_spec (h : Consistent s) (state : String) :
    Consistent (s.removeExisting state) ∧ (s.removeExisting state).capacity = s.capacity ∧
      (s.removeExisting state).ttl = s.ttl ∧
      ∀ c, c ∈ (s.removeExisting state).queue ↔ c ∈ s.queue ∧ c.value.state ≠ state := by
  unfold OAuthTransactionStore.removeExisting
  cases hlookup : s.items.lookup state with
  | none =>
    refine ⟨h, rfl, rfl, fun c => (and_iff_left_of_imp fun hc hstate => ?_).symm⟩
    rw [(h.linked.lookup state c).mpr ⟨hc, hstate⟩] at hlookup
    cases hlookup
  | some existing =>
    obtain ⟨hexisting, hstate⟩ := (h.linked.lookup state existing).mp hlookup
    refine ⟨h.remove hexisting, rfl, rfl, fun c => ?_⟩
    rw [mem_queue_remove h hexisting]
    refine and_congr_right fun hc => not_congr ⟨fun heq => heq ▸ hstate, fun heq => ?_⟩
    exact h.linked.eq_of_key_eq hc hexisting (heq.trans hstate.symm)

/-- The store in which `Put` looks for room. -/
def room (s : OAuthTransactionStore) (state : String) (now : ℤ) : OAuthTransactionStore :=
  (s.removeExpired now).removeExisting state

theorem room_spec (h : Consistent s) (state : String) (now : ℤ) :
    Consistent (room s state now) ∧ (room s state now).capacity = s.capacity ∧
      (room s state now).ttl = s.ttl ∧ ∀ c, c ∈ (room s state now).queue ↔
        c ∈ s.queue ∧ now < c.value.expiresAt ∧ c.value.state ≠ state := by
  obtain ⟨hconsistent, hcapacity, httl, hmem⟩ :=
    removeExisting_spec (h.removeExpired now) state
  refine ⟨hconsistent, hcapacity, httl, fun c => (hmem c).trans ?_⟩
  rw [mem_queue_removeExpired h, and_assoc]

/-- The stored transactions of other states that have not expired. -/
def unexpiredOthers (s : OAuthTransactionStore) (state : String) (now : ℤ) :
    List (Cell StoredOAuthTransaction) :=
  s.queue.filter fun c => now < c.value.expiresAt ∧ c.value.state ≠ state

theorem length_room (h : Consistent s) (state : String) (now : ℤ) :
    (room s state now).queue.length = (unexpiredOthers s state now).length := by
  obtain ⟨hconsistent, -, -, hmem⟩ := room_spec h state now
  refine ((List.perm_ext_iff_of_nodup (hconsistent.linked.ptrs.of_map _)
    ((h.linked.ptrs.of_map _).filter _)).mpr fun c => ?_).length_eq
  rw [hmem, List.mem_filter, decide_eq_true_eq]

/-- `Put` fails where the unexpired transactions of other states fill the store. -/
theorem put_eq (h : Consistent s) (transaction : OAuthTransaction) (now : ℤ) :
    s.put transaction now =
      if (unexpiredOthers s transaction.state now).length = s.capacity then
        (.error errTransactionStoreFull, room s transaction.state now)
      else (.ok (), { room s transaction.state now with
        toLinkedMap := (room s transaction.state now).pushBack StoredOAuthTransaction.state
          ⟨transaction, now + s.ttl⟩ }) := by
  obtain ⟨hconsistent, hcapacity, httl, -⟩ := room_spec h transaction.state now
  have hlength := hconsistent.linked.length_items
  have hbounded := hconsistent.bounded
  rw [hcapacity] at hbounded
  have hfull : (room s transaction.state now).capacity ≤
      (room s transaction.state now).items.entries.length ↔
        (unexpiredOthers s transaction.state now).length = s.capacity := by
    rw [hcapacity, hlength, ← length_room h]
    omega
  show (if (room s transaction.state now).capacity ≤
    (room s transaction.state now).items.entries.length then _ else _) = _
  simp only [hfull]
  rw [← httl]
  rfl

end Steps

section Invariant

variable {ttl capacity : ℤ} {calls : List Call} {s : OAuthTransactionStore}

theorem transactionInv_new (hcapacity : 1 ≤ capacity) :
    TransactionInv ttl capacity [] (.newOAuthTransactionStore ttl capacity) where
  linked := linked_empty
  ordered := .nil
  bounded := by
    show (0 : ℤ) ≤ capacity
    omega
  ttl_eq := rfl
  capacity_eq := rfl
  latest := nofun

variable {c : Cell StoredOAuthTransaction}

theorem TransactionInv.latest_concat (h : TransactionInv ttl capacity calls s) {call : Call}
    (hc : c ∈ s.queue) (hstate : call.state ≠ c.value.state) :
    ∃ time, LatestPut (calls ++ [call]) c.value.transaction time ∧
      c.value.expiresAt = time + ttl := by
  obtain ⟨time, hlatest, hexpires⟩ := h.latest c hc
  exact ⟨time, hlatest.concat hstate, hexpires⟩

/-- `Put` keeps the invariant. -/
theorem TransactionInv.put (h : TransactionInv ttl capacity calls s)
    (transaction : OAuthTransaction) {now : ℤ} (hnow : ∀ call ∈ calls, call.now ≤ now) :
    TransactionInv ttl capacity (calls ++ [.put transaction now]) (s.put transaction now).2 := by
  obtain ⟨hconsistent, hcapacity, httl, hmem⟩ := room_spec h.toConsistent transaction.state now
  have holds : ∀ c ∈ (room s transaction.state now).queue,
      ∃ time, LatestPut (calls ++ [.put transaction now]) c.value.transaction time ∧
        c.value.expiresAt = time + ttl := by
    intro c hc
    obtain ⟨hc, -, hstate⟩ := (hmem c).mp hc
    exact h.latest_concat hc (Ne.symm hstate)
  rw [put_eq h.toConsistent]
  split_ifs with hfull
  · exact ⟨hconsistent, httl.trans h.ttl_eq, hcapacity.trans h.capacity_eq, holds⟩
  · have hbounded := hconsistent.bounded
    have hlength := length_room h.toConsistent transaction.state now
    -- The new element expires last, since no earlier `Put` was made at a later time.
    have hlast : ∀ c ∈ (room s transaction.state now).queue, c.value.expiresAt ≤ now + s.ttl := by
      intro c hc
      obtain ⟨time, hlatest, hexpires⟩ := h.latest c ((hmem c).mp hc).1
      have htime : time ≤ now := hnow _ hlatest.mem
      rw [hexpires, h.ttl_eq]
      omega
    refine ⟨⟨hconsistent.linked.pushBack ?_, ?_, ?_⟩, httl.trans h.ttl_eq,
      hcapacity.trans h.capacity_eq, fun c hc => ?_⟩
    · -- No element of the state is left.
      rw [Option.eq_none_iff_forall_ne_some]
      intro c hlookup
      obtain ⟨hc, hstate⟩ := (hconsistent.linked.lookup _ c).mp hlookup
      exact ((hmem c).mp hc).2.2 hstate
    · refine List.pairwise_append.mpr ⟨hconsistent.ordered, List.pairwise_singleton _ _, ?_⟩
      intro c hc c' hc'
      rw [List.mem_singleton.mp hc']
      exact hlast c hc
    · show (((room s transaction.state now).queue ++ [_]).length : ℤ) ≤ _
      rw [List.length_append, List.length_singleton]
      push_cast
      show _ ≤ (room s transaction.state now).capacity
      rw [hcapacity] at hbounded ⊢
      omega
    · rcases mem_pushBack.mp hc with hc | rfl
      · exact holds c hc
      · refine ⟨now, latestPut_concat _ _ _, ?_⟩
        show now + s.ttl = now + ttl
        rw [h.ttl_eq]

/-- `Consume` keeps the invariant. -/
theorem TransactionInv.consume (h : TransactionInv ttl capacity calls s) (state : String)
    (now : ℤ) :
    TransactionInv ttl capacity (calls ++ [.consume state now]) (s.consume state now).2 := by
  unfold OAuthTransactionStore.consume
  cases hlookup : s.items.lookup state with
  | none =>
    refine ⟨h.toConsistent, h.ttl_eq, h.capacity_eq, fun c hc => ?_⟩
    refine h.latest_concat hc fun hstate => ?_
    rw [(h.linked.lookup state c).mpr ⟨hc, hstate.symm⟩] at hlookup
    cases hlookup
  | some element =>
    obtain ⟨helement, hstate⟩ := (h.linked.lookup state element).mp hlookup
    have hremoved : TransactionInv ttl capacity (calls ++ [.consume state now])
        (s.remove element) := by
      refine ⟨h.toConsistent.remove helement, h.ttl_eq, h.capacity_eq, fun c hc => ?_⟩
      obtain ⟨hc, hne⟩ := (mem_queue_remove h.toConsistent helement).mp hc
      refine h.latest_concat hc fun heq => hne ?_
      exact h.linked.eq_of_key_eq hc helement (heq.symm.trans hstate.symm)
    dsimp only
    split_ifs with hnow
    · exact hremoved
    · exact hremoved

theorem TransactionInv.call (h : TransactionInv ttl capacity calls s) {call : Call}
    (hnow : ∀ earlier ∈ calls, earlier.now ≤ call.now) :
    TransactionInv ttl capacity (calls ++ [call]) (s.call call) := by
  cases call with
  | put transaction now => exact h.put transaction hnow
  | consume state now => exact h.consume state now

theorem transactionInv_storeAfter (hcapacity : 1 ≤ capacity)
    (hclock : (calls.map Call.now).Pairwise (· ≤ ·)) :
    TransactionInv ttl capacity calls (storeAfter ttl capacity calls) := by
  induction calls using List.reverseRecOn with
  | nil => exact transactionInv_new hcapacity
  | append_singleton calls call ih =>
    rw [List.map_append, List.pairwise_append] at hclock
    unfold storeAfter
    rw [List.foldl_append]
    refine (ih hclock.1).call fun earlier hearlier => ?_
    exact hclock.2.2 _ (List.mem_map_of_mem hearlier) _ (List.mem_singleton_self _)

/-- A transaction that `Consume` returns is the one of the latest call about the state, and has not
expired. -/
theorem TransactionInv.consume_some (h : TransactionInv ttl capacity calls s) {state : String}
    {now : ℤ} {transaction : OAuthTransaction}
    (hconsume : (s.consume state now).1 = some transaction) :
    transaction.state = state ∧ ∃ time, LatestPut calls transaction time ∧ now < time + ttl := by
  unfold OAuthTransactionStore.consume at hconsume
  cases hlookup : s.items.lookup state with
  | none =>
    rw [hlookup] at hconsume
    cases hconsume
  | some element =>
    rw [hlookup] at hconsume
    dsimp only at hconsume
    split_ifs at hconsume with hnow
    cases hconsume
    obtain ⟨helement, hstate⟩ := (h.linked.lookup state element).mp hlookup
    obtain ⟨time, hlatest, hexpires⟩ := h.latest element helement
    exact ⟨hstate, time, hlatest, hexpires ▸ hnow⟩

/-- The store holds the transaction, in the map and in the queue. -/
def Holds (s : OAuthTransactionStore) (c : Cell StoredOAuthTransaction) : Prop :=
  c ∈ s.queue ∧ s.items.lookup c.value.state = some c

theorem holds_iff (h : Consistent s) :
    Holds s c ↔ c ∈ s.queue :=
  and_iff_left_of_imp fun hc => (h.linked.lookup _ c).mpr ⟨hc, rfl⟩

/-- A `Put` that fails leaves the transactions that have not expired. -/
theorem holds_put_of_error (h : TransactionInv ttl capacity calls s)
    {transaction : OAuthTransaction} {now : ℤ} {e : Failure}
    (herror : (s.put transaction now).1 = .error e) (hc : now < c.value.expiresAt) :
    Holds (s.put transaction now).2 c ↔ Holds s c := by
  obtain ⟨hconsistent, -, -, hmem⟩ := room_spec h.toConsistent transaction.state now
  rw [put_eq h.toConsistent] at herror ⊢
  split_ifs at herror ⊢ with hfull
  rw [holds_iff hconsistent, holds_iff h.toConsistent, hmem]
  refine ⟨And.left, fun hmem => ⟨hmem, hc, fun hstate => ?_⟩⟩
  -- An element of the state would leave one place less than the store has to the others.
  have hsub : (unexpiredOthers s transaction.state now).length < s.queue.length := by
    refine List.length_filter_lt_length_iff_exists.mpr ⟨c, hmem, ?_⟩
    rw [decide_eq_true_eq]
    exact fun hboth => hboth.2 hstate
  have hbounded := h.bounded
  omega

end Invariant

/-- After any calls with a clock that does not go back, for any capacity of at least one:

the map and the queue hold the same entries, in the order of their expiry, and no more than the
capacity. A `Consume` that succeeds returns the transaction of the latest `Put` of the state, which
was made less than the time to live ago, with no `Consume` of the state since. A `Put` fails just
where as many unexpired transactions of other states are stored as the capacity says, and leaves all
unexpired transactions then. -/
theorem transactions_single_use {ttl capacity : ℤ} (hcapacity : 1 ≤ capacity) {calls : List Call}
    (hclock : (calls.map Call.now).Pairwise (· ≤ ·)) :
    (Consistent (storeAfter ttl capacity calls) ∧
      ((storeAfter ttl capacity calls).queue.length : ℤ) ≤ capacity) ∧
    (∀ state now transaction,
      ((storeAfter ttl capacity calls).consume state now).1 = some transaction →
        transaction.state = state ∧ ∃ time, LatestPut calls transaction time ∧ now < time + ttl) ∧
    ∀ transaction now,
      ((storeAfter ttl capacity calls).put transaction now).1 =
        (if (unexpiredOthers (storeAfter ttl capacity calls) transaction.state now).length =
            capacity
          then .error errTransactionStoreFull else .ok ()) ∧
      (((storeAfter ttl capacity calls).put transaction now).1 ≠ .ok () →
        ∀ c : Cell StoredOAuthTransaction, now < c.value.expiresAt →
          (Holds ((storeAfter ttl capacity calls).put transaction now).2 c ↔
            Holds (storeAfter ttl capacity calls) c)) := by
  have h : TransactionInv ttl capacity calls (storeAfter ttl capacity calls) :=
    transactionInv_storeAfter hcapacity hclock
  generalize storeAfter ttl capacity calls = s at h ⊢
  refine ⟨⟨h.toConsistent, h.capacity_eq ▸ h.bounded⟩, fun state now transaction =>
    h.consume_some, fun transaction now => ⟨?_, fun hfail c hc => ?_⟩⟩
  · rw [put_eq h.toConsistent, h.capacity_eq]
    split_ifs with hfull
    · rfl
    · rfl
  · cases hresult : (s.put transaction now).1 with
    | ok u => exact absurd hresult hfail
    | error e => exact holds_put_of_error h hresult hc

/-- Two transactions in a store for two. -/
def sampleCalls : List Call :=
  [.put ⟨"github", "a", "v", ""⟩ 0, .put ⟨"github", "b", "w", ""⟩ 1, .consume "a" 2]

/-- The second transaction is still there after the first one was consumed. -/
theorem sample_consume :
    (∃ time, LatestPut sampleCalls ⟨"github", "b", "w", ""⟩ time ∧ (3 : ℤ) < time + 10) ∧
      ((storeAfter 10 2 sampleCalls).put ⟨"github", "c", "x", ""⟩ 3).1 = .ok () := by
  obtain ⟨-, hconsume, hput⟩ :=
    @transactions_single_use 10 2 (by decide) sampleCalls (by decide)
  have hsome : ((storeAfter 10 2 sampleCalls).consume "b" 3).1 = some ⟨"github", "b", "w", ""⟩ :=
    rfl
  refine ⟨(hconsume "b" 3 _ hsome).2, ?_⟩
  rw [(hput ⟨"github", "c", "x", ""⟩ 3).1]
  rfl

end DubboAdmin.OAuth
