import Mathlib.Data.Finset.Union
import Mathlib.Data.Finset.Option
import Redot.Basic

/-!
The discovery cache of rc-validator-network (`AddrCache`, discovery.rs): validator identity to
address set, and peer identity back to validator identities. Over every history of
`add_validator` calls on `AddrCache::new()`:

* `validatorAddresses_ofHistory`: the forward map replaces, and reads back the peer ids of the
  last call's addresses;
* `mem_peerIdToAuthorityIds_ofHistory`: the reverse index holds exactly the pairs some call
  made, although `add_validator` skips peer ids the validator already had, so it only ever grows
  (`addrCache_of_history` puts the three together).

`fromCalls` says what the cache is for, from the calls alone: each validator's last address set,
and for each peer id the validators some call gave it to. `ofHistory_eq_fromCalls` shows that the
incremental cache is that one, so the cache depends on the calls per validator only and not on how
different validators' calls interleave (`ofHistory_eq_of_calls_per_validator`).
-/

namespace Redot.Network

/-- A multihash: its code and digest. -/
structure Multihash where
  code : Nat
  digest : Bytes
deriving DecidableEq, Repr

/-- A libp2p peer identity: the multihash of the peer's key. -/
structure PeerId where
  multihash : Multihash
deriving DecidableEq, Repr

/-- A `Multiaddr` component; the cache only tells `/p2p` from the rest. -/
inductive Protocol
  | p2p (multihash : Multihash)
  | other (code : Nat) (data : Bytes)
deriving DecidableEq, Repr

structure Multiaddr where
  protocols : List Protocol
deriving DecidableEq, Repr

/-- `PeerId::from_multihash` of libp2p: a SHA-256 multihash, or an inline identity multihash of
at most 42 bytes. -/
def PeerId.fromMultihash (multihash : Multihash) : Option PeerId :=
  if multihash.code = 0x12 ∨ (multihash.code = 0 ∧ multihash.digest.length ≤ 42) then
    some ⟨multihash⟩
  else none

/-- The peer id in an address's last component, if that component is `/p2p`. -/
def peerIdFromMultiaddr (addr : Multiaddr) : Option PeerId :=
  addr.protocols.getLast?.bind fun
    | .p2p multihash => PeerId.fromMultihash multihash
    | _ => none

def addressesToPeerIds (addresses : Finset Multiaddr) : Finset PeerId :=
  addresses.biUnion fun addr => (peerIdFromMultiaddr addr).toFinset

/-- The claim's reading of an address's peer id: the last component is `/p2p`, carrying a
multihash libp2p accepts as a peer id (SHA-256, or an identity multihash of at most 42 bytes),
and `p` is that multihash. -/
def EndsInPeerId (addr : Multiaddr) (p : PeerId) : Prop :=
  addr.protocols.getLast? = some (.p2p p.multihash) ∧
    (p.multihash.code = 0x12 ∨ (p.multihash.code = 0 ∧ p.multihash.digest.length ≤ 42))

/-- `peer_id_from_multiaddr` finds exactly the peer id the address ends in. -/
theorem peerIdFromMultiaddr_eq_some {addr : Multiaddr} {p : PeerId} :
    peerIdFromMultiaddr addr = some p ↔ EndsInPeerId addr p := by
  unfold peerIdFromMultiaddr EndsInPeerId PeerId.fromMultihash
  rcases addr.protocols.getLast? with _ | (mh | ⟨c, d⟩) <;> simp
  -- a last component `/p2p mh`: the peer id is `mh`, under the same check on either side
  rcases p with ⟨mh'⟩
  rw [PeerId.mk.injEq, and_comm]
  exact and_congr_right fun h => h ▸ Iff.rfl

@[simp] theorem mem_addressesToPeerIds {addresses : Finset Multiaddr} {p : PeerId} :
    p ∈ addressesToPeerIds addresses ↔ ∃ addr ∈ addresses, peerIdFromMultiaddr addr = some p := by
  simp [addressesToPeerIds]

/-- The two `HashMap`s of the cache, as their lookups; a key that is absent reads `none`. -/
@[ext]
structure AddrCache where
  authorityIdToAddresses : ValidatorId → Option (Finset Multiaddr)
  peerIdToAuthorityIds : PeerId → Option (Finset ValidatorId)

namespace AddrCache

def new : AddrCache := ⟨fun _ => none, fun _ => none⟩

/-- `add_validator`. The loop over `new_peer_ids` visits each peer id once and writes only its
own entry, so its result does not depend on the set's iteration order: an entry gains
`validator_id` exactly when its peer id is new and was not among the old ones. -/
def addValidator (c : AddrCache) (validatorId : ValidatorId) (addresses : List Multiaddr) :
    AddrCache :=
  let addressesSet := addresses.toFinset
  let newPeerIds := addressesToPeerIds addressesSet
  let oldPeerIds := ((c.authorityIdToAddresses validatorId).map addressesToPeerIds).getD ∅
  { authorityIdToAddresses :=
      Function.update c.authorityIdToAddresses validatorId (some addressesSet)
    peerIdToAuthorityIds := fun peerId =>
      if peerId ∈ newPeerIds ∧ peerId ∉ oldPeerIds then
        some (insert validatorId ((c.peerIdToAuthorityIds peerId).getD ∅))
      else c.peerIdToAuthorityIds peerId }

def validatorAddresses (c : AddrCache) (validatorId : ValidatorId) : Option (Finset PeerId) :=
  match c.authorityIdToAddresses validatorId with
  | some addresses => some (addressesToPeerIds addresses)
  | none => none

/-- The cache after a history of `add_validator` calls on `AddrCache::new()`. -/
def ofHistory (history : List (ValidatorId × List Multiaddr)) : AddrCache :=
  history.foldl (fun c call => c.addValidator call.1 call.2) new

/-- The peer ids of an address list, as `add_validator` computes them. -/
def pids (addresses : List Multiaddr) : Finset PeerId := addressesToPeerIds addresses.toFinset

theorem mem_pids {addresses : List Multiaddr} {p : PeerId} :
    p ∈ pids addresses ↔ ∃ addr ∈ addresses, EndsInPeerId addr p := by
  simp [pids, peerIdFromMultiaddr_eq_some]

@[simp] theorem ofHistory_nil : ofHistory [] = new := rfl

theorem ofHistory_append_singleton (history : List (ValidatorId × List Multiaddr))
    (call : ValidatorId × List Multiaddr) :
    ofHistory (history ++ [call]) = (ofHistory history).addValidator call.1 call.2 := by
  simp [ofHistory, List.foldl_append]

@[simp] theorem addValidator_authorityIdToAddresses (c : AddrCache) (v : ValidatorId)
    (addresses : List Multiaddr) (v' : ValidatorId) :
    (c.addValidator v addresses).authorityIdToAddresses v' =
      if v' = v then some addresses.toFinset else c.authorityIdToAddresses v' := by
  simp only [addValidator, Function.update_apply]

theorem peerIdToAuthorityIds_addValidator (c : AddrCache) (v : ValidatorId)
    (addresses : List Multiaddr) (p : PeerId) :
    (c.addValidator v addresses).peerIdToAuthorityIds p =
      if p ∈ pids addresses ∧
          p ∉ ((c.authorityIdToAddresses v).map addressesToPeerIds).getD ∅ then
        some (insert v ((c.peerIdToAuthorityIds p).getD ∅))
      else c.peerIdToAuthorityIds p := rfl

/-- Calls for other validators leave a validator's entry alone. -/
theorem authorityIdToAddresses_foldl_of_ne (c : AddrCache)
    (calls : List (ValidatorId × List Multiaddr)) {v : ValidatorId}
    (h : ∀ call ∈ calls, call.1 ≠ v) :
    (calls.foldl (fun c call => c.addValidator call.1 call.2) c).authorityIdToAddresses v =
      c.authorityIdToAddresses v := by
  induction calls generalizing c with
  | nil => rfl
  | cons call calls ih =>
    rw [List.foldl_cons, ih _ fun x hx => h x (List.mem_cons_of_mem _ hx),
      addValidator_authorityIdToAddresses, if_neg (Ne.symm (h call (List.mem_cons_self _ _)))]

/-- Every address set the forward map holds is the set of some call for that validator. -/
theorem authorityIdToAddresses_ofHistory {history : List (ValidatorId × List Multiaddr)}
    {v : ValidatorId} {S : Finset Multiaddr}
    (h : (ofHistory history).authorityIdToAddresses v = some S) :
    ∃ addresses, (v, addresses) ∈ history ∧ S = addresses.toFinset := by
  induction history using List.reverseRecOn generalizing S with
  | nil => cases h
  | append_singleton history call ih =>
    rw [ofHistory_append_singleton, addValidator_authorityIdToAddresses] at h
    split at h
    · subst v
      exact ⟨call.2, List.mem_append_right _ (List.mem_singleton_self _), (Option.some.inj h).symm⟩
    · obtain ⟨addresses, hmem, rfl⟩ := ih h
      exact ⟨addresses, List.mem_append_left _ hmem, rfl⟩

/-- **Forward map.** `validator_addresses` is `None` for a validator no call named, and
otherwise the peer ids of the last call's addresses: a later call replaces, never merges. -/
theorem validatorAddresses_ofHistory (history : List (ValidatorId × List Multiaddr))
    (v : ValidatorId) :
    ((∀ call ∈ history, call.1 ≠ v) → (ofHistory history).validatorAddresses v = none) ∧
    (∀ pre addresses post, history = pre ++ (v, addresses) :: post →
      (∀ call ∈ post, call.1 ≠ v) →
      (ofHistory history).validatorAddresses v = some (pids addresses)) := by
  refine ⟨fun h => ?_, fun pre addresses post hsplit h => ?_⟩
  · simp only [validatorAddresses, ofHistory, authorityIdToAddresses_foldl_of_ne new history h]
    rfl
  · subst hsplit
    simp only [validatorAddresses, ofHistory, List.foldl_append, List.foldl_cons,
      authorityIdToAddresses_foldl_of_ne _ post h, addValidator_authorityIdToAddresses, if_pos,
      pids]

/-- A peer id among a validator's old ones, those `add_validator` skips, came from an earlier
call for that validator. -/
theorem mem_oldPeerIds_ofHistory {history : List (ValidatorId × List Multiaddr)} {v : ValidatorId}
    {p : PeerId}
    (h : p ∈ (((ofHistory history).authorityIdToAddresses v).map addressesToPeerIds).getD ∅) :
    ∃ addresses, (v, addresses) ∈ history ∧ p ∈ pids addresses := by
  cases hS : (ofHistory history).authorityIdToAddresses v with
  | none => simp [hS] at h
  | some S =>
    obtain ⟨b, hb, rfl⟩ := authorityIdToAddresses_ofHistory hS
    exact ⟨b, hb, by simpa [hS, pids] using h⟩

/-- **Reverse index.** A validator is indexed under a peer id exactly when some call gave it an
address ending in that peer id. -/
theorem mem_peerIdToAuthorityIds_ofHistory (history : List (ValidatorId × List Multiaddr))
    (p : PeerId) (v : ValidatorId) :
    v ∈ ((ofHistory history).peerIdToAuthorityIds p).getD ∅ ↔
      ∃ addresses, (v, addresses) ∈ history ∧ p ∈ pids addresses := by
  induction history using List.reverseRecOn with
  | nil => simp [new]
  | append_singleton history call ih =>
    obtain ⟨v₀, addresses₀⟩ := call
    simp only [ofHistory_append_singleton, peerIdToAuthorityIds_addValidator, List.mem_append,
      List.mem_singleton, Prod.mk.injEq]
    split
    next hnew =>
      simp only [Option.getD_some, Finset.mem_insert, ih]
      constructor
      · rintro (rfl | ⟨a, ha, hp⟩)
        · exact ⟨addresses₀, .inr ⟨rfl, rfl⟩, hnew.1⟩
        · exact ⟨a, .inl ha, hp⟩
      · rintro ⟨a, (ha | ⟨rfl, rfl⟩), hp⟩
        · exact .inr ⟨a, ha, hp⟩
        · exact .inl rfl
    next hold =>
      rw [ih]
      constructor
      · rintro ⟨a, ha, hp⟩
        exact ⟨a, .inl ha, hp⟩
      · rintro ⟨a, (ha | ⟨rfl, rfl⟩), hp⟩
        · exact ⟨a, ha, hp⟩
        · -- the peer id was among the validator's old ones, which an earlier call indexed
          exact mem_oldPeerIds_ofHistory (not_not.mp (not_and.mp hold hp))

/-- **The cache over a history.** After any `add_validator` calls on `AddrCache::new()`, a
validator maps to the peer ids of its last call's addresses, the reverse index holds exactly the
pairs some call made, and it only grows. -/
theorem addrCache_of_history (history : List (ValidatorId × List Multiaddr)) :
    (∀ v, (∀ call ∈ history, call.1 ≠ v) → (ofHistory history).validatorAddresses v = none) ∧
    (∀ v pre addresses post, history = pre ++ (v, addresses) :: post →
      (∀ call ∈ post, call.1 ≠ v) →
      ∃ S, (ofHistory history).validatorAddresses v = some S ∧
        ∀ p, p ∈ S ↔ ∃ addr ∈ addresses, EndsInPeerId addr p) ∧
    (∀ p v, v ∈ ((ofHistory history).peerIdToAuthorityIds p).getD ∅ ↔
      ∃ addresses, (v, addresses) ∈ history ∧ ∃ addr ∈ addresses, EndsInPeerId addr p) ∧
    (∀ call p, ((ofHistory history).peerIdToAuthorityIds p).getD ∅ ⊆
      ((ofHistory (history ++ [call])).peerIdToAuthorityIds p).getD ∅) := by
  refine ⟨fun v => (validatorAddresses_ofHistory history v).1,
    fun v pre addresses post hsplit h => ⟨pids addresses,
      (validatorAddresses_ofHistory history v).2 pre addresses post hsplit h, fun _ => mem_pids⟩,
    fun p v => by simp only [mem_peerIdToAuthorityIds_ofHistory, mem_pids], fun call p v hv => ?_⟩
  obtain ⟨a, ha, hp⟩ := (mem_peerIdToAuthorityIds_ofHistory history p v).mp hv
  exact (mem_peerIdToAuthorityIds_ofHistory _ p v).mpr ⟨a, List.mem_append_left _ ha, hp⟩

/-! ## The cache computed at once -/

/-- The validators some call of `history` gave an address ending in `p`. -/
def indexedUnder (history : List (ValidatorId × List Multiaddr)) (p : PeerId) :
    Finset ValidatorId :=
  ((history.filter fun call => p ∈ pids call.2).map Prod.fst).toFinset

/-- The cache a history of `add_validator` calls should leave, read off the whole history: each
validator's address set from its last call, and under each peer id the validators some call
indexed there, with no entry where there are none. -/
def fromCalls (history : List (ValidatorId × List Multiaddr)) : AddrCache where
  authorityIdToAddresses v := ((history.filter (·.1 == v)).getLast?).map (·.2.toFinset)
  peerIdToAuthorityIds p :=
    if indexedUnder history p = ∅ then none else some (indexedUnder history p)

@[simp] theorem mem_indexedUnder {history : List (ValidatorId × List Multiaddr)} {p : PeerId}
    {v : ValidatorId} :
    v ∈ indexedUnder history p ↔ ∃ addresses, (v, addresses) ∈ history ∧ p ∈ pids addresses := by
  simp [indexedUnder]

theorem indexedUnder_append_singleton (history : List (ValidatorId × List Multiaddr))
    (call : ValidatorId × List Multiaddr) (p : PeerId) :
    indexedUnder (history ++ [call]) p =
      if p ∈ pids call.2 then insert call.1 (indexedUnder history p) else indexedUnder history p := by
  split <;> ext x <;> simp_all [indexedUnder, List.filter_append, or_comm]

theorem peerIdToAuthorityIds_fromCalls (history : List (ValidatorId × List Multiaddr))
    (p : PeerId) : (fromCalls history).peerIdToAuthorityIds p =
      if indexedUnder history p = ∅ then none else some (indexedUnder history p) := rfl

theorem getD_peerIdToAuthorityIds_fromCalls (history : List (ValidatorId × List Multiaddr))
    (p : PeerId) : ((fromCalls history).peerIdToAuthorityIds p).getD ∅ = indexedUnder history p := by
  rw [peerIdToAuthorityIds_fromCalls]
  split <;> simp_all

/-- The address set `fromCalls` keeps for a validator is that of one of its calls. -/
theorem authorityIdToAddresses_fromCalls {history : List (ValidatorId × List Multiaddr)}
    {v : ValidatorId} {S : Finset Multiaddr} (h : (fromCalls history).authorityIdToAddresses v = some S) :
    ∃ addresses, (v, addresses) ∈ history ∧ S = addresses.toFinset := by
  simp only [fromCalls, Option.map_eq_some'] at h
  obtain ⟨call, hlast, rfl⟩ := h
  have hmem := List.mem_of_getLast?_eq_some hlast
  rw [List.mem_filter, beq_iff_eq] at hmem
  exact ⟨call.2, hmem.2 ▸ hmem.1, rfl⟩

/-- An old peer id of a validator, one `add_validator` skips, already indexes it in
`fromCalls`. -/
theorem mem_indexedUnder_of_old {history : List (ValidatorId × List Multiaddr)} {v : ValidatorId}
    {p : PeerId}
    (h : p ∈ (((fromCalls history).authorityIdToAddresses v).map addressesToPeerIds).getD ∅) :
    v ∈ indexedUnder history p := by
  cases hS : (fromCalls history).authorityIdToAddresses v with
  | none => simp [hS] at h
  | some S =>
    obtain ⟨a, ha, rfl⟩ := authorityIdToAddresses_fromCalls hS
    exact mem_indexedUnder.mpr ⟨a, ha, by simpa [hS, pids] using h⟩

/-- **The step lemma.** One more `add_validator` call on the cache `fromCalls` gives is the cache
`fromCalls` gives for the longer history: skipping the validator's old peer ids loses nothing,
as those already index it. -/
theorem fromCalls_addValidator (history : List (ValidatorId × List Multiaddr))
    (call : ValidatorId × List Multiaddr) :
    (fromCalls history).addValidator call.1 call.2 = fromCalls (history ++ [call]) := by
  obtain ⟨v, addresses⟩ := call
  refine AddrCache.ext (funext fun v' => ?_) (funext fun p => ?_)
  · by_cases hv : v' = v
    · subst hv
      simp [fromCalls, List.filter_append]
    · simp [fromCalls, List.filter_append, hv, Ne.symm hv]
  · rw [peerIdToAuthorityIds_addValidator, getD_peerIdToAuthorityIds_fromCalls,
      peerIdToAuthorityIds_fromCalls, peerIdToAuthorityIds_fromCalls, indexedUnder_append_singleton]
    split
    next hnew => simp [hnew.1]
    next hold =>
      by_cases hp : p ∈ pids addresses
      · -- an old peer id of `v`: an earlier call already indexed `v` under it
        have hv := mem_indexedUnder_of_old (not_not.mp (not_and.mp hold hp))
        simp [hp, Finset.insert_eq_of_mem hv]
      · simp [hp]

/-- **The incremental cache is the batch one.** After any history of `add_validator` calls on
`AddrCache::new()`, the cache is `fromCalls`: each validator's last address set, and each peer
id's validators, with no entry where there are none. -/
theorem ofHistory_eq_fromCalls (history : List (ValidatorId × List Multiaddr)) :
    ofHistory history = fromCalls history := by
  induction history using List.reverseRecOn with
  | nil => exact AddrCache.ext rfl (funext fun _ => by simp [new, fromCalls, indexedUnder])
  | append_singleton history call ih =>
    rw [ofHistory_append_singleton, ih, fromCalls_addValidator]

/-- **Interleavings do not matter.** Two histories in which every validator has the same
sequence of calls leave the same cache, however the calls of different validators interleave:
the order in which lookups for different validators complete changes nothing. -/
theorem ofHistory_eq_of_calls_per_validator
    {history history' : List (ValidatorId × List Multiaddr)}
    (h : ∀ v, history.filter (·.1 == v) = history'.filter (·.1 == v)) :
    ofHistory history = ofHistory history' := by
  rw [ofHistory_eq_fromCalls, ofHistory_eq_fromCalls]
  refine AddrCache.ext (funext fun v => by simp only [fromCalls, h v]) (funext fun p => ?_)
  -- a validator's calls are the calls of its own subsequence
  have hown : ∀ (l : List (ValidatorId × List Multiaddr)) v a,
      (v, a) ∈ l ↔ (v, a) ∈ l.filter (·.1 == v) := by simp
  have hS : indexedUnder history p = indexedUnder history' p := by
    ext v
    simp only [mem_indexedUnder, hown history v, hown history' v, h v]
  simp only [peerIdToAuthorityIds_fromCalls, hS]

/-- A validator key of 32 bytes `b`. -/
def keyOf (b : UInt8) : ValidatorId := ⟨List.replicate 32 b, List.length_replicate _ _⟩

/-- An address ending in the peer id with SHA-256 digest `[b]`. -/
def p2pAddress (b : UInt8) : Multiaddr := ⟨[.other 4 [127, 0, 0, 1], .p2p ⟨0x12, [b]⟩]⟩

/-- Two validators' calls, in one order and the other. -/
theorem ofHistory_eq_of_calls_per_validator_swapped :
    (∀ v, [(keyOf 1, [p2pAddress 1]), (keyOf 2, [p2pAddress 2])].filter (·.1 == v) =
      [(keyOf 2, [p2pAddress 2]), (keyOf 1, [p2pAddress 1])].filter (·.1 == v)) ∧
    ofHistory [(keyOf 1, [p2pAddress 1]), (keyOf 2, [p2pAddress 2])] =
      ofHistory [(keyOf 2, [p2pAddress 2]), (keyOf 1, [p2pAddress 1])] :=
  have h : ∀ v, [(keyOf 1, [p2pAddress 1]), (keyOf 2, [p2pAddress 2])].filter (·.1 == v) =
      [(keyOf 2, [p2pAddress 2]), (keyOf 1, [p2pAddress 1])].filter (·.1 == v) := fun v => by
    have hne : keyOf 1 ≠ keyOf 2 := by decide
    by_cases h1 : keyOf 1 = v <;> by_cases h2 : keyOf 2 = v <;> simp_all
  ⟨h, ofHistory_eq_of_calls_per_validator h⟩

end AddrCache

end Redot.Network
