import Mathlib.Data.List.Basic

/-!
Data shared by the validator crates: byte strings, sr25519 public keys (the `ValidatorId` of
both crates), the `anyhow::Error`s the code builds, and `Json`, serde_json's `Value`, which is
what a gossip payload holds.
-/

namespace Redot

/-- Rust's `Vec<u8>`. -/
abbrev Bytes := List UInt8

/-- An sr25519 public key. `ValidatorId` and `AuthorityId` are both this 32-byte key. -/
structure Public where
  bytes : Bytes
  length_bytes : bytes.length = 32
deriving DecidableEq, Repr

abbrev ValidatorId := Public

/-- An `anyhow::Error` as this repository builds one: `anyhow!` on a fixed text, or on a text
followed by a key's `{:?}`, an error under a `context`, or an error handed up by a dependency
(the FROST engine, the network, the keystore, serde). -/
inductive Error
  | msg (text : String)
  | keyed (text : String) (key : Public)
  | context (context source : Error)
  | dependency (text : String)
deriving DecidableEq, Repr

instance instDecidableEqExcept {ε α : Type} [DecidableEq ε] [DecidableEq α] :
    DecidableEq (Except ε α)
  | .ok a, .ok b => if h : a = b then isTrue (h ▸ rfl) else isFalse fun e => by cases e; exact h rfl
  | .error a, .error b =>
    if h : a = b then isTrue (h ▸ rfl) else isFalse fun e => by cases e; exact h rfl
  | .ok _, .error _ => isFalse fun e => by cases e
  | .error _, .ok _ => isFalse fun e => by cases e

mutual
/-- serde_json's `Value`. Numbers are integers; array elements and object members are lists
of their own so that equality derives. -/
inductive Json
  | null
  | bool (b : Bool)
  | number (n : Int)
  | string (s : String)
  | array (elements : Elements)
  | object (members : Members)
/-- The elements of a JSON array. -/
inductive Elements
  | nil
  | cons (head : Json) (tail : Elements)
/-- The members of a JSON object, in order. -/
inductive Members
  | nil
  | cons (key : String) (value : Json) (tail : Members)
end

deriving instance DecidableEq for Json
deriving instance Repr for Json

/-- A gossip payload. The worker does nothing with a payload's bytes but hand them to
`serde_json::from_slice`, and serde_json reads back every document it writes, so a payload is
kept as the document its bytes spell; bytes that are no JSON at all fail `from_slice` as a
document of the wrong shape does. -/
abbrev Payload := Json

/-- serde's externally tagged form of a newtype enum variant: a one-member object. -/
def Json.variant (name : String) (body : Json) : Json := .object (.cons name body .nil)

/-- The name and body of a one-member object, the only shape serde reads as a newtype
variant of an enum. -/
def Json.variant? : Json → Option (String × Json)
  | .object (.cons name body .nil) => some (name, body)
  | _ => none

@[simp] theorem Json.variant?_variant (name : String) (body : Json) :
    (Json.variant name body).variant? = some (name, body) := rfl

/-- serde's `Option`: `None` is `null`, `Some v` is `v` itself. -/
def Json.ofOption {α : Type} (f : α → Json) : Option α → Json
  | none => .null
  | some a => f a

end Redot
