import Redot.Basic

/-!
The two gossip protocols' messages and their serde form. `DkgMessage` and `SignMessage` come
from `redot_core_primitives`, which is not under src/: both are enums of two newtype variants
over FROST round packages, matched on by worker.rs, and serde writes them externally tagged.
-/

namespace Redot.Validator

/-- A FROST value the worker moves between the engine and the wire without looking inside
(a round package, a verifying key, a signature), kept as the JSON serde writes for it. -/
structure FrostValue where
  json : Json
deriving DecidableEq, Repr

abbrev DkgPart1Message := FrostValue
abbrev DkgPart2Message := FrostValue
abbrev SignPart1Message := FrostValue
abbrev SignPart2Message := FrostValue
abbrev DkgVerifyingKey := FrostValue
abbrev DkgSignature := FrostValue

/-- Modelled from the spec: `DkgMessage` is not under src/; worker.rs matches its two
variants, the first-phase and second-phase messages of key generation. -/
inductive DkgMessage
  | dkgPart1 (message : DkgPart1Message)
  | dkgPart2 (message : DkgPart2Message)
deriving DecidableEq, Repr

/-- Modelled from the spec: `SignMessage` is not under src/; worker.rs matches its two
variants, the first-phase and second-phase messages of threshold signing. -/
inductive SignMessage
  | signPart1 (message : SignPart1Message)
  | signPart2 (message : SignPart2Message)
deriving DecidableEq, Repr

def dkgTopic : String := "dkg_topic"
def signTopic : String := "sign_topic"

/-! ## serde -/

def DkgMessage.toJson : DkgMessage → Json
  | .dkgPart1 m => .variant "DkgPart1" m.json
  | .dkgPart2 m => .variant "DkgPart2" m.json

def SignMessage.toJson : SignMessage → Json
  | .signPart1 m => .variant "SignPart1" m.json
  | .signPart2 m => .variant "SignPart2" m.json

/-- `serde_json::from_slice::<DkgMessage>`: a one-member object naming a variant. The worker
only logs the error of any other document, so its text is left out. -/
def DkgMessage.fromJson (j : Json) : Option DkgMessage :=
  match j.variant? with
  | some ("DkgPart1", body) => some (.dkgPart1 ⟨body⟩)
  | some ("DkgPart2", body) => some (.dkgPart2 ⟨body⟩)
  | _ => none

/-- `serde_json::from_slice::<SignMessage>`, read as `DkgMessage.fromJson` is. -/
def SignMessage.fromJson (j : Json) : Option SignMessage :=
  match j.variant? with
  | some ("SignPart1", body) => some (.signPart1 ⟨body⟩)
  | some ("SignPart2", body) => some (.signPart2 ⟨body⟩)
  | _ => none

@[simp] theorem DkgMessage.fromJson_toJson (m : DkgMessage) :
    DkgMessage.fromJson m.toJson = some m := by
  cases m <;> rfl

@[simp] theorem SignMessage.fromJson_toJson (m : SignMessage) :
    SignMessage.fromJson m.toJson = some m := by
  cases m <;> rfl

@[simp] theorem DkgMessage.fromJson_null : DkgMessage.fromJson .null = none := rfl

end Redot.Validator
