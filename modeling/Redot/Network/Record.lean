import Redot.Basic

/-!
Signed validator records (`SignedValidatorRecord`, discovery.rs). `sign_record` signs the
concatenated record segments with every authority-discovery key of the keystore, and
`verify_signature` decodes the signature and the public key and checks the concatenation again.

* `signRecord_spec`: `sign_record` fails exactly when some key cannot sign, and otherwise
  returns one record per key, in order, each with its Kademlia key and each passing
  `verify_signature`, given only that sr25519 verification accepts the keystore's signatures.
* `verifyInputs_eq_iff`: what `verify_signature` hands to the sr25519 check determines the
  validator id, the concatenated record and the first 64 signature bytes, and nothing more.
* `verifySignature_panics_iff_short`: `verify_signature` panics exactly on the records whose
  signature has fewer than 64 bytes, always at the signature's `expect`.
-/

namespace Redot.Network

/-- An sr25519 signature: 64 bytes. -/
structure Signature where
  bytes : Bytes
  length_bytes : bytes.length = 64
deriving DecidableEq, Repr

/-- SCALE `encode` of a signature: its 64 bytes. -/
def Signature.encode (sig : Signature) : Bytes := sig.bytes

/-- SCALE `decode` of a signature from the front of a slice: it reads 64 bytes and leaves the
rest unread; a shorter slice does not decode. -/
def Signature.decode (input : Bytes) : Option Signature :=
  if h : 64 ≤ input.length then some ⟨input.take 64, by simp [h]⟩ else none

/-- `AuthorityId::from_slice`: a public key is exactly 32 bytes. -/
def AuthorityId.fromSlice (input : Bytes) : Option Public :=
  if h : input.length = 32 then some ⟨input, h⟩ else none

/-- A keystore key type. -/
structure KeyTypeId where
  id : String
deriving DecidableEq, Repr

/-- `key_types::AUTHORITY_DISCOVERY`. -/
def authorityDiscovery : KeyTypeId := ⟨"audi"⟩

/-- The two keystore calls `sign_record` makes. -/
structure Keystore where
  sr25519PublicKeys : KeyTypeId → List Public
  sr25519Sign : KeyTypeId → Public → Bytes → Except Error (Option Signature)

/-- The cryptography discovery.rs calls and does not define: SHA-256 and sr25519 verification
(`AuthorityPair::verify`). -/
structure Crypto where
  sha256 : Bytes → Bytes
  verify : Signature → Bytes → Public → Bool

structure SignedValidatorRecord where
  record : List Bytes
  validatorId : ValidatorId
  authSignature : Bytes
deriving DecidableEq, Repr

namespace SignedValidatorRecord

/-- `key`: the Kademlia key of a validator, the SHA-256 digest of its id's bytes. -/
def key (sha256 : Bytes → Bytes) (validatorId : ValidatorId) : Bytes := sha256 validatorId.bytes

/-- The signature, the public key and the message `verify_signature` hands to
`AuthorityPair::verify`. Each `expect` that fails panics; the panic is the `error`, with the
`expect`'s text. -/
def verifyInputs (r : SignedValidatorRecord) : Except String (Signature × Public × Bytes) := do
  let signature ← (Signature.decode r.authSignature).elim (.error "Decode signature failed") .ok
  let publicKey ←
    (AuthorityId.fromSlice r.validatorId.bytes).elim (.error "Decode public key failed") .ok
  let message := r.record.flatten
  pure (signature, publicKey, message)

/-- `verify_signature`. -/
def verifySignature (crypto : Crypto) (r : SignedValidatorRecord) : Except String Bool :=
  (verifyInputs r).map fun (signature, publicKey, message) =>
    crypto.verify signature message publicKey

/-- One turn of the loop in `sign_record`: sign the concatenated record with `key`. -/
def signWithKey (crypto : Crypto) (keyStore : Keystore) (serializedRecord : List Bytes)
    (key : Public) : Except Error (SignedValidatorRecord × Bytes) := do
  let message := serializedRecord.flatten
  let authSignature ← match keyStore.sr25519Sign authorityDiscovery key message with
    | .error e => .error (.context (.keyed "Error signing with key: " key) e)
    | .ok none => .error (.keyed "Could not find key in keystore. Key: " key)
    | .ok (some signature) => .ok signature
  let authSignature := authSignature.encode
  let signedRecord : SignedValidatorRecord :=
    { record := serializedRecord, validatorId := key, authSignature }
  pure (signedRecord, SignedValidatorRecord.key crypto.sha256 key)

/-- The loop of `sign_record`: push each key's record onto `signedRecords`, and return at the
first error. -/
def signLoop (crypto : Crypto) (keyStore : Keystore) (serializedRecord : List Bytes) :
    List Public → List (SignedValidatorRecord × Bytes) →
      Except Error (List (SignedValidatorRecord × Bytes))
  | [], signedRecords => .ok signedRecords
  | key :: keys, signedRecords =>
    match signWithKey crypto keyStore serializedRecord key with
    | .error e => .error e
    | .ok signed => signLoop crypto keyStore serializedRecord keys (signedRecords ++ [signed])

/-- `sign_record`: the loop over the keystore's authority-discovery keys. -/
def signRecord (crypto : Crypto) (keyStore : Keystore) (serializedRecord : List Bytes) :
    Except Error (List (SignedValidatorRecord × Bytes)) :=
  signLoop crypto keyStore serializedRecord (keyStore.sr25519PublicKeys authorityDiscovery) []

/-! ## One key -/

variable {crypto : Crypto} {keyStore : Keystore} {serializedRecord : List Bytes} {k : Public}

/-- `signWithKey` without its `do` block: the keystore's answer decides, and each error names
the key. -/
theorem signWithKey_eq : signWithKey crypto keyStore serializedRecord k =
    match keyStore.sr25519Sign authorityDiscovery k serializedRecord.flatten with
    | .error e => .error (.context (.keyed "Error signing with key: " k) e)
    | .ok none => .error (.keyed "Could not find key in keystore. Key: " k)
    | .ok (some sig) => .ok (⟨serializedRecord, k, sig.encode⟩, key crypto.sha256 k) := by
  simp only [signWithKey]
  split <;> rfl

theorem signWithKey_eq_ok {signed : SignedValidatorRecord × Bytes}
    (h : signWithKey crypto keyStore serializedRecord k = .ok signed) :
    ∃ sig, keyStore.sr25519Sign authorityDiscovery k serializedRecord.flatten = .ok (some sig) ∧
      signed = (⟨serializedRecord, k, sig.encode⟩, key crypto.sha256 k) := by
  rw [signWithKey_eq] at h
  split at h
  · cases h
  · cases h
  · exact ⟨_, ‹_›, (Except.ok.inj h).symm⟩

theorem signWithKey_error_iff :
    (∃ e, signWithKey crypto keyStore serializedRecord k = .error e) ↔
      ∀ sig, keyStore.sr25519Sign authorityDiscovery k serializedRecord.flatten ≠ .ok (some sig) := by
  rw [signWithKey_eq]
  split <;> simp_all

@[simp] theorem Signature.decode_encode (sig : Signature) : Signature.decode sig.encode = some sig := by
  obtain ⟨bytes, h⟩ := sig
  simp [Signature.decode, Signature.encode, h, List.take_of_length_le]

@[simp] theorem AuthorityId.fromSlice_bytes (v : Public) : AuthorityId.fromSlice v.bytes = some v := by
  simp [AuthorityId.fromSlice, v.length_bytes]

/-- A record signed with `sig` verifies as `sig` does on the concatenated record. -/
theorem verifySignature_signed (sig : Signature) :
    verifySignature crypto ⟨serializedRecord, k, sig.encode⟩ =
      .ok (crypto.verify sig serializedRecord.flatten k) := by
  simp [verifySignature, verifyInputs, bind, Except.bind, pure, Except.pure, Except.map]

/-! ## The loop -/

/-- The loop fails exactly when some key's turn fails. -/
theorem signLoop_error_iff (keys : List Public) (signedRecords : List (SignedValidatorRecord × Bytes)) :
    (∃ e, signLoop crypto keyStore serializedRecord keys signedRecords = .error e) ↔
      ∃ k ∈ keys, ∃ e, signWithKey crypto keyStore serializedRecord k = .error e := by
  induction keys generalizing signedRecords with
  | nil => simp [signLoop]
  | cons key keys ih =>
    simp only [signLoop]
    split <;> simp_all

/-- A loop that returns has pushed, after `signedRecords`, one record per key and in the keys'
order, each signed by the keystore under its key. -/
theorem signLoop_eq_ok {keys : List Public} {signedRecords l : List (SignedValidatorRecord × Bytes)}
    (h : signLoop crypto keyStore serializedRecord keys signedRecords = .ok l) :
    ∃ pushed, l = signedRecords ++ pushed ∧ pushed.map (·.1.validatorId) = keys ∧
      ∀ x ∈ pushed, ∃ sig, keyStore.sr25519Sign authorityDiscovery x.1.validatorId
          serializedRecord.flatten = .ok (some sig) ∧
        x = (⟨serializedRecord, x.1.validatorId, sig.encode⟩, key crypto.sha256 x.1.validatorId) := by
  induction keys generalizing signedRecords with
  | nil => exact ⟨[], by simpa [signLoop] using h.symm, rfl, by simp⟩
  | cons k keys ih =>
    simp only [signLoop] at h
    split at h
    · cases h
    next signed hk =>
      obtain ⟨sig, hsig, rfl⟩ := signWithKey_eq_ok hk
      obtain ⟨pushed, rfl, hkeys, hpushed⟩ := ih h
      refine ⟨(⟨serializedRecord, k, sig.encode⟩, key crypto.sha256 k) :: pushed, by simp,
        by simp [hkeys], ?_⟩
      rintro x (_ | ⟨_, hx⟩)
      · exact ⟨sig, hsig, rfl⟩
      · exact hpushed x hx

/-- **`sign_record`.** It fails exactly when some key fails to sign; otherwise it returns one
record per key, in the keystore's order, each passing `verify_signature` when sr25519
verification accepts what the keystore signs. -/
theorem signRecord_spec (crypto : Crypto) (keyStore : Keystore) (serializedRecord : List Bytes)
    (hverify : ∀ k message sig, keyStore.sr25519Sign authorityDiscovery k message = .ok (some sig) →
      crypto.verify sig message k = true) :
    ((∃ e, signRecord crypto keyStore serializedRecord = .error e) ↔
      ∃ k ∈ keyStore.sr25519PublicKeys authorityDiscovery,
        ∀ sig, keyStore.sr25519Sign authorityDiscovery k serializedRecord.flatten ≠ .ok (some sig)) ∧
    ∀ l, signRecord crypto keyStore serializedRecord = .ok l →
      l.map (·.1.validatorId) = keyStore.sr25519PublicKeys authorityDiscovery ∧
      ∀ x ∈ l, x.1.record = serializedRecord ∧ x.2 = key crypto.sha256 x.1.validatorId ∧
        x.1.verifySignature crypto = .ok true := by
  refine ⟨by simp only [signRecord, signLoop_error_iff, signWithKey_error_iff], fun l h => ?_⟩
  obtain ⟨pushed, rfl, hkeys, hpushed⟩ := signLoop_eq_ok h
  refine ⟨by simpa using hkeys, fun x hx => ?_⟩
  obtain ⟨sig, hsig, hx⟩ := hpushed x (by simpa using hx)
  rw [hx]
  exact ⟨rfl, rfl, by rw [verifySignature_signed, hverify _ _ _ hsig]⟩

/-- A key of 32 zero bytes. -/
def zeroKey : Public := ⟨List.replicate 32 0, rfl⟩

/-- A signature of 64 zero bytes. -/
def zeroSignature : Signature := ⟨List.replicate 64 0, rfl⟩

/-- A keystore holding `zeroKey` alone, signing everything with `zeroSignature`. -/
def oneKeyStore : Keystore :=
  ⟨fun _ => [zeroKey], fun _ _ _ => .ok (some zeroSignature)⟩

/-- SHA-256 and sr25519 verification stood in by the identity and a check that accepts all. -/
def acceptingCrypto : Crypto := ⟨id, fun _ _ _ => true⟩

theorem signRecord_spec_one_key :
    (∀ k message sig, oneKeyStore.sr25519Sign authorityDiscovery k message = .ok (some sig) →
      acceptingCrypto.verify sig message k = true) ∧
    (((∃ e, signRecord acceptingCrypto oneKeyStore [[1, 2]] = .error e) ↔
      ∃ k ∈ oneKeyStore.sr25519PublicKeys authorityDiscovery,
        ∀ sig, oneKeyStore.sr25519Sign authorityDiscovery k [[1, 2]].flatten ≠ .ok (some sig)) ∧
    ∀ l, signRecord acceptingCrypto oneKeyStore [[1, 2]] = .ok l →
      l.map (·.1.validatorId) = oneKeyStore.sr25519PublicKeys authorityDiscovery ∧
      ∀ x ∈ l, x.1.record = [[1, 2]] ∧ x.2 = key acceptingCrypto.sha256 x.1.validatorId ∧
        x.1.verifySignature acceptingCrypto = .ok true) :=
  ⟨fun _ _ _ _ => rfl, signRecord_spec acceptingCrypto oneKeyStore [[1, 2]] fun _ _ _ _ => rfl⟩

/-! ## What `verify_signature` checks -/

variable {r r' : SignedValidatorRecord} {t t' : Signature × Public × Bytes}

/-- `verify_signature`'s decoding: the key always decodes, as a validator id is 32 bytes, so
only a signature shorter than 64 bytes panics. -/
theorem verifyInputs_eq (r : SignedValidatorRecord) : verifyInputs r =
    match Signature.decode r.authSignature with
    | some sig => .ok (sig, r.validatorId, r.record.flatten)
    | none => .error "Decode signature failed" := by
  simp only [verifyInputs, AuthorityId.fromSlice_bytes]
  cases Signature.decode r.authSignature <;> rfl

theorem Signature.bytes_of_decode {input : Bytes} {sig : Signature}
    (h : Signature.decode input = some sig) : sig.bytes = input.take 64 := by
  unfold Signature.decode at h
  split at h
  · cases h; rfl
  · cases h

theorem Signature.ext_bytes {sig sig' : Signature} (h : sig.bytes = sig'.bytes) : sig = sig' := by
  cases sig; cases sig'; cases h; rfl

theorem verifyInputs_eq_ok (h : verifyInputs r = .ok t) :
    t.1.bytes = r.authSignature.take 64 ∧ t.2 = (r.validatorId, r.record.flatten) := by
  rw [verifyInputs_eq] at h
  split at h
  next sig hsig =>
    cases h
    exact ⟨Signature.bytes_of_decode hsig, rfl⟩
  · cases h

/-- **What the signature check sees.** `verify_signature` checks the same inputs for two records
exactly when they share the validator id, the concatenated record and the first 64 signature
bytes: the split into segments and the bytes past the 64th are not checked. -/
theorem verifyInputs_eq_iff (h : verifyInputs r = .ok t) (h' : verifyInputs r' = .ok t') :
    t = t' ↔ r.validatorId = r'.validatorId ∧ r.record.flatten = r'.record.flatten ∧
      r.authSignature.take 64 = r'.authSignature.take 64 := by
  obtain ⟨hsig, hrest⟩ := verifyInputs_eq_ok h
  obtain ⟨hsig', hrest'⟩ := verifyInputs_eq_ok h'
  obtain ⟨sig, v, message⟩ := t
  obtain ⟨sig', v', message'⟩ := t'
  simp only [Prod.mk.injEq] at hsig hsig' hrest hrest' ⊢
  obtain ⟨rfl, rfl⟩ := hrest
  obtain ⟨rfl, rfl⟩ := hrest'
  constructor
  · rintro ⟨rfl, hv, hm⟩
    exact ⟨hv, hm, hsig.symm.trans hsig'⟩
  · rintro ⟨hv, hm, ht⟩
    exact ⟨Signature.ext_bytes (by rw [hsig, hsig', ht]), hv, hm⟩

/-- A record of two one-byte segments. -/
def resplitRecord : SignedValidatorRecord := ⟨[[1], [2]], zeroKey, zeroSignature.encode⟩

/-- The same bytes as one segment. -/
def joinedRecord : SignedValidatorRecord := ⟨[[1, 2]], zeroKey, zeroSignature.encode⟩

theorem verifyInputs_eq_iff_resplit :
    verifyInputs resplitRecord = .ok (zeroSignature, zeroKey, [1, 2]) ∧
    verifyInputs joinedRecord = .ok (zeroSignature, zeroKey, [1, 2]) ∧
    ((zeroSignature, zeroKey, [1, 2]) = ((zeroSignature, zeroKey, [1, 2]) : Signature × Public × Bytes) ↔
      resplitRecord.validatorId = joinedRecord.validatorId ∧
      resplitRecord.record.flatten = joinedRecord.record.flatten ∧
      resplitRecord.authSignature.take 64 = joinedRecord.authSignature.take 64) :=
  ⟨rfl, rfl, verifyInputs_eq_iff rfl rfl⟩

/-- The spec's reading: distinct records that decode hand distinct inputs to the signature
check. -/
def VerifyInputsInjective : Prop :=
  ∀ r r' t t', verifyInputs r = .ok t → verifyInputs r' = .ok t' → r ≠ r' → t ≠ t'

/-- Re-splitting the record segments keeps the signature check's inputs. -/
theorem verifyInputs_not_injective : ¬ VerifyInputsInjective :=
  fun h => h resplitRecord joinedRecord _ _ rfl rfl (by decide) rfl

/-! ## When `verify_signature` panics -/

theorem Signature.decode_eq_none_iff {input : Bytes} :
    Signature.decode input = none ↔ input.length < 64 := by
  unfold Signature.decode
  split
  next h => simp; omega
  next h => simp; omega

/-- `verify_signature` without its `do` block: the sr25519 check on the decoded signature, or
the panic of the signature's `expect`. -/
theorem verifySignature_eq (crypto : Crypto) (r : SignedValidatorRecord) :
    verifySignature crypto r =
      match Signature.decode r.authSignature with
      | some sig => .ok (crypto.verify sig r.record.flatten r.validatorId)
      | none => .error "Decode signature failed" := by
  rw [verifySignature, verifyInputs_eq]
  cases Signature.decode r.authSignature <;> rfl

/-- **A short signature panics.** `verify_signature` panics exactly when `auth_signature` has
fewer than 64 bytes, at the signature's `expect`; the key's `expect` never fires, a
`ValidatorId` being 32 bytes by its type. -/
theorem verifySignature_panics_iff_short (crypto : Crypto) (r : SignedValidatorRecord) :
    (∀ msg, verifySignature crypto r = .error msg ↔
      msg = "Decode signature failed" ∧ r.authSignature.length < 64) ∧
    ((∃ b, verifySignature crypto r = .ok b) ↔ 64 ≤ r.authSignature.length) := by
  rw [verifySignature_eq]
  cases h : Signature.decode r.authSignature with
  | none =>
    have hshort := Signature.decode_eq_none_iff.mp h
    simp [hshort, eq_comm]
  | some sig =>
    have hlong : 64 ≤ r.authSignature.length :=
      Nat.le_of_not_lt fun hshort => by simp [Signature.decode_eq_none_iff.mpr hshort] at h
    simp [hlong]

/-- An empty signature: the record an untrusted peer needs to abort the node. -/
example : verifySignature acceptingCrypto ⟨[], zeroKey, []⟩ = .error "Decode signature failed" :=
  rfl

end SignedValidatorRecord

end Redot.Network
