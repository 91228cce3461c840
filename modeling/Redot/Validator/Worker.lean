import Redot.Validator.Messages

/-!
The rc-validator worker (worker.rs): its two reply slots, the three event sources of
`Worker::run`, and the handlers, as a step function. A step handles one event under the
answers `Env` gives for the engine and the network, and returns the new worker and the
step's effects: calls into the engine and the network, and sends on reply channels.
-/

namespace Redot.Validator

/-- A `oneshot::Sender`, named by its channel. -/
structure Sender where
  id : Nat
deriving DecidableEq, Repr

/-- A value sent on a reply channel: the `Result` the channel's type carries. -/
inductive Reply
  | rotateKey (result : Except Error DkgVerifyingKey)
  | sign (result : Except Error DkgSignature)
  | unit (result : Except Error Unit)
deriving DecidableEq, Repr

/-- Modelled from the spec: `shared::Command` is not under src/; these are the variants and
fields worker.rs matches on and service.rs builds. -/
inductive Command
  | rotateKey (sender : Sender)
  | sign (message : Bytes) (sender : Sender)
  | setup (nt : UInt16 × UInt16) (sender : Sender)
  | removeValidators (validators : List ValidatorId) (sender : Sender)
  | addValidators (validators : List ValidatorId) (sender : Sender)
deriving DecidableEq, Repr

/-- The channel a slot keeps, tagged with the request it answers. -/
inductive QueryResultSender
  | rotateKey (ch : Sender)
  | sign (ch : Sender)
deriving DecidableEq, Repr

/-- One arm of the `select!` loop in `Worker::run`. -/
inductive Event
  | dkgMessage (message : Payload)
  | signMessage (message : Payload)
  | command (command : Command)
deriving DecidableEq, Repr

/-- Modelled from the spec: `FrostDkg` is not under src/, and its methods return what the spec
says they produce. These are the answers of the engine and of the network service while one
event is handled; the engine's answers depend on its own state, which the worker never reads,
so a run may answer differently at every step. -/
structure Env where
  startDkg : Except Error DkgMessage
  dkgPart1 : DkgPart1Message → Except Error DkgMessage
  dkgPart2 : DkgPart2Message → Except Error (Option DkgVerifyingKey)
  startSign : Bytes → Except Error SignMessage
  signPart1 : SignPart1Message → Except Error SignMessage
  signPart2 : SignPart2Message → Except Error (Option DkgSignature)
  setNt : UInt16 → UInt16 → Except Error Unit
  removeValidators : List ValidatorId → Except Error Unit
  newValidators : List ValidatorId → Except Error Unit

/-- What handling an event does outside the worker, in order: a call into the engine or the
network service, or a send on a reply channel. -/
inductive Effect
  | startDkg
  | dkgPart1 (message : DkgPart1Message)
  | dkgPart2 (message : DkgPart2Message)
  | startSign (message : Bytes)
  | signPart1 (message : SignPart1Message)
  | signPart2 (message : SignPart2Message)
  | setNt (n t : UInt16)
  | publish (topic : String) (message : Payload)
  | removeValidators (validators : List ValidatorId)
  | newValidators (validators : List ValidatorId)
  | send (ch : Sender) (result : Reply)
deriving DecidableEq, Repr

def Effect.send? : Effect → Option (Sender × Reply)
  | .send ch r => some (ch, r)
  | _ => none

/-- The sends among a step's effects, in order. -/
def sends (es : List Effect) : List (Sender × Reply) := es.filterMap Effect.send?

/-- The worker's own state: the two reply slots. The engine, the network handle and the
command receiver are outside it, in `Env` and `Event`. -/
structure Worker where
  dkgSender : Option QueryResultSender
  signSender : Option QueryResultSender
deriving DecidableEq, Repr

namespace Worker

def new : Worker := ⟨none, none⟩

/-- `handle_send!`: send `result` on the slot's channel if the slot holds the variant the
result is for. -/
def handleSend : Option QueryResultSender → Reply → List Effect
  | some (.rotateKey ch), .rotateKey r => [.send ch (.rotateKey r)]
  | some (.sign ch), .sign r => [.send ch (.sign r)]
  | _, _ => []

/-- `serialize_and_publish`. Serializing these types cannot fail, and every caller only logs
a failed publish, so what is left is the call. -/
def serializeAndPublish (topic : String) (message : Json) : List Effect :=
  [.publish topic message]

def startDkg (env : Env) : List Effect :=
  .startDkg :: match env.startDkg with
    | .ok msg => serializeAndPublish dkgTopic msg.toJson
    | .error _ => []

def startSign (env : Env) (message : Bytes) : List Effect :=
  .startSign message :: match env.startSign message with
    | .ok msg => serializeAndPublish signTopic msg.toJson
    | .error _ => []

def anotherSignInProgress : Error := .msg "Another sign request is in progress"

def handleCommand (w : Worker) (env : Env) : Command → Worker × List Effect
  | .rotateKey sender => ({ w with dkgSender := some (.rotateKey sender) }, startDkg env)
  | .sign message sender =>
    if w.signSender.isSome then (w, [.send sender (.sign (.error anotherSignInProgress))])
    else ({ w with signSender := some (.sign sender) }, startSign env message)
  | .setup nt sender => (w, [.setNt nt.1 nt.2, .send sender (.unit (env.setNt nt.1 nt.2))])
  | .removeValidators validators sender =>
    (w, [.removeValidators validators, .send sender (.unit (env.removeValidators validators))])
  | .addValidators validators sender =>
    (w, [.newValidators validators, .send sender (.unit (env.newValidators validators))])

def handleDkgMessage (w : Worker) (env : Env) (message : Payload) : Worker × List Effect :=
  match DkgMessage.fromJson message with
  | some (.dkgPart1 m) =>
    (w, .dkgPart1 m :: match env.dkgPart1 m with
      | .ok msg => serializeAndPublish dkgTopic msg.toJson
      | .error _ => [])
  | some (.dkgPart2 m) =>
    match env.dkgPart2 m with
    | .ok msg =>
      match msg with
      | some key =>
        ({ w with dkgSender := none }, .dkgPart2 m :: handleSend w.dkgSender (.rotateKey (.ok key)))
      | none => (w, .dkgPart2 m :: serializeAndPublish dkgTopic (Json.ofOption FrostValue.json msg))
    | .error e =>
      ({ w with dkgSender := none }, .dkgPart2 m :: handleSend w.dkgSender (.rotateKey (.error e)))
  | none => (w, [])

def handleSignMessage (w : Worker) (env : Env) (message : Payload) : Worker × List Effect :=
  match SignMessage.fromJson message with
  | some (.signPart1 m) =>
    (w, (.signPart1 m :: match env.signPart1 m with
        | .ok msg => serializeAndPublish signTopic msg.toJson
        | .error _ => []) ++ serializeAndPublish signTopic (SignMessage.signPart1 m).toJson)
  | some (.signPart2 m) =>
    match env.signPart2 m with
    | .ok signature =>
      match signature with
      | some sign =>
        ({ w with signSender := none }, .signPart2 m :: handleSend w.signSender (.sign (.ok sign)))
      | none => (w, [.signPart2 m])
    | .error e =>
      ({ w with signSender := none }, .signPart2 m :: handleSend w.signSender (.sign (.error e)))
  | none => (w, [])

/-- One pass of the `select!` loop: handle whichever source was ready. -/
def step (w : Worker) (env : Env) : Event → Worker × List Effect
  | .dkgMessage message => w.handleDkgMessage env message
  | .signMessage message => w.handleSignMessage env message
  | .command command => w.handleCommand env command

/-- `Worker::run` over a finite run of events, each handled under its own answers: the last
worker and each step's effects. -/
def run (w : Worker) : List (Env × Event) → Worker × List (List Effect)
  | [] => (w, [])
  | (env, ev) :: rest =>
    let r := (w.step env ev).1.run rest
    (r.1, (w.step env ev).2 :: r.2)

/-! ## What a step does to the slots -/

/-- What a second-phase engine result delivers: `Ok (Some v)` completes the round with `v`,
`Err e` with `e`, and `Ok None` leaves it open. -/
def roundResult {α : Type} : Except Error (Option α) → Option (Except Error α)
  | .ok (some a) => some (.ok a)
  | .ok none => none
  | .error e => some (.error e)

@[simp] theorem roundResult_eq_none {α : Type} {r : Except Error (Option α)} :
    roundResult r = none ↔ r = .ok none := by
  rcases r with _ | _ | _ <;> simp [roundResult]

/-- The result an event delivers to the `RotateKey` slot: that of a DKG-topic payload holding
a `DkgPart2` whose engine result completes the round. -/
def dkgCompletion (env : Env) : Event → Option (Except Error DkgVerifyingKey)
  | .dkgMessage message =>
    match DkgMessage.fromJson message with
    | some (.dkgPart2 m) => roundResult (env.dkgPart2 m)
    | _ => none
  | _ => none

/-- The result an event delivers to the `Sign` slot: that of a Sign-topic payload holding a
`SignPart2` whose engine result completes the round. -/
def signCompletion (env : Env) : Event → Option (Except Error DkgSignature)
  | .signMessage message =>
    match SignMessage.fromJson message with
    | some (.signPart2 m) => roundResult (env.signPart2 m)
    | _ => none
  | _ => none

@[simp] theorem dkgCompletion_signMessage (env : Env) (p : Payload) :
    dkgCompletion env (.signMessage p) = none := rfl

@[simp] theorem dkgCompletion_command (env : Env) (c : Command) :
    dkgCompletion env (.command c) = none := rfl

@[simp] theorem signCompletion_dkgMessage (env : Env) (p : Payload) :
    signCompletion env (.dkgMessage p) = none := rfl

@[simp] theorem signCompletion_command (env : Env) (c : Command) :
    signCompletion env (.command c) = none := rfl

/-! ## The branches of the gossip handlers -/

section Branches

variable {w : Worker} {env : Env} {message : Payload}

theorem handleDkgMessage_of_none (h : DkgMessage.fromJson message = none) :
    w.handleDkgMessage env message = (w, []) := by
  simp [handleDkgMessage, h]

theorem handleDkgMessage_of_part1 {m : DkgPart1Message}
    (h : DkgMessage.fromJson message = some (.dkgPart1 m)) :
    w.handleDkgMessage env message = (w, .dkgPart1 m :: match env.dkgPart1 m with
      | .ok msg => [.publish dkgTopic msg.toJson]
      | .error _ => []) := by
  simp only [handleDkgMessage, h]
  rfl

/-- A `DkgPart2` whose round completes hands the result to the `RotateKey` slot; one that
leaves it open publishes the serialized `None`. -/
theorem handleDkgMessage_of_part2 {m : DkgPart2Message}
    (h : DkgMessage.fromJson message = some (.dkgPart2 m)) :
    w.handleDkgMessage env message = match roundResult (env.dkgPart2 m) with
      | some r => ({ w with dkgSender := none }, .dkgPart2 m :: handleSend w.dkgSender (.rotateKey r))
      | none => (w, [.dkgPart2 m, .publish dkgTopic .null]) := by
  simp only [handleDkgMessage, h]
  rcases env.dkgPart2 m with e | _ | key <;> rfl

theorem handleSignMessage_of_none (h : SignMessage.fromJson message = none) :
    w.handleSignMessage env message = (w, []) := by
  simp [handleSignMessage, h]

/-- A `SignPart1` is answered through the engine and then re-published, whatever the answer. -/
theorem handleSignMessage_of_part1 {m : SignPart1Message}
    (h : SignMessage.fromJson message = some (.signPart1 m)) :
    w.handleSignMessage env message = (w, (.signPart1 m :: match env.signPart1 m with
      | .ok msg => [.publish signTopic msg.toJson]
      | .error _ => []) ++ [.publish signTopic (SignMessage.signPart1 m).toJson]) := by
  simp only [handleSignMessage, h]
  rfl

theorem handleSignMessage_of_part2 {m : SignPart2Message}
    (h : SignMessage.fromJson message = some (.signPart2 m)) :
    w.handleSignMessage env message = match roundResult (env.signPart2 m) with
      | some r => ({ w with signSender := none }, .signPart2 m :: handleSend w.signSender (.sign r))
      | none => (w, [.signPart2 m]) := by
  simp only [handleSignMessage, h]
  rcases env.signPart2 m with e | _ | sig <;> rfl

end Branches

theorem handleDkgMessage_fst (w : Worker) (env : Env) (message : Payload) :
    (w.handleDkgMessage env message).1 =
      if (dkgCompletion env (.dkgMessage message)).isSome then { w with dkgSender := none }
      else w := by
  rcases hd : DkgMessage.fromJson message with _ | (m | m)
  · simp [handleDkgMessage_of_none hd, dkgCompletion, hd]
  · simp [handleDkgMessage_of_part1 hd, dkgCompletion, hd]
  · rw [handleDkgMessage_of_part2 hd]
    rcases hr : roundResult (env.dkgPart2 m) with _ | r <;> simp [dkgCompletion, hd, hr]

theorem handleSignMessage_fst (w : Worker) (env : Env) (message : Payload) :
    (w.handleSignMessage env message).1 =
      if (signCompletion env (.signMessage message)).isSome then { w with signSender := none }
      else w := by
  rcases hd : SignMessage.fromJson message with _ | (m | m)
  · simp [handleSignMessage_of_none hd, signCompletion, hd]
  · simp [handleSignMessage_of_part1 hd, signCompletion, hd]
  · rw [handleSignMessage_of_part2 hd]
    rcases hr : roundResult (env.signPart2 m) with _ | r <;> simp [signCompletion, hd, hr]

theorem sends_handleDkgMessage (w : Worker) (env : Env) (message : Payload) :
    sends (w.handleDkgMessage env message).2 =
      match dkgCompletion env (.dkgMessage message) with
      | some r => sends (handleSend w.dkgSender (.rotateKey r))
      | none => [] := by
  rcases hd : DkgMessage.fromJson message with _ | (m | m)
  · simp [handleDkgMessage_of_none hd, dkgCompletion, hd, sends]
  · rw [handleDkgMessage_of_part1 hd]
    cases env.dkgPart1 m <;> simp [dkgCompletion, hd, sends, Effect.send?]
  · rw [handleDkgMessage_of_part2 hd]
    rcases hr : roundResult (env.dkgPart2 m) with _ | r <;>
      simp [dkgCompletion, hd, hr, sends, Effect.send?]

theorem sends_handleSignMessage (w : Worker) (env : Env) (message : Payload) :
    sends (w.handleSignMessage env message).2 =
      match signCompletion env (.signMessage message) with
      | some r => sends (handleSend w.signSender (.sign r))
      | none => [] := by
  rcases hd : SignMessage.fromJson message with _ | (m | m)
  · simp [handleSignMessage_of_none hd, signCompletion, hd, sends]
  · rw [handleSignMessage_of_part1 hd]
    cases env.signPart1 m <;> simp [signCompletion, hd, sends, Effect.send?]
  · rw [handleSignMessage_of_part2 hd]
    rcases hr : roundResult (env.signPart2 m) with _ | r <;>
      simp [signCompletion, hd, hr, sends, Effect.send?]

/-- Everything `handle_send!` does is one send of its result. -/
theorem mem_handleSend {e : Effect} {q : Option QueryResultSender} {r : Reply}
    (h : e ∈ handleSend q r) : ∃ ch, e = .send ch r := by
  unfold handleSend at h
  split at h <;> simp_all

@[simp] theorem startSign_not_mem_handleSend (m : Bytes) (q : Option QueryResultSender)
    (r : Reply) : Effect.startSign m ∉ handleSend q r := fun h => by
  obtain ⟨_, h⟩ := mem_handleSend h
  cases h

@[simp] theorem startDkg_not_mem_handleSend (q : Option QueryResultSender) (r : Reply) :
    Effect.startDkg ∉ handleSend q r := fun h => by
  obtain ⟨_, h⟩ := mem_handleSend h
  cases h

theorem step_dkgSender (w : Worker) (env : Env) (ev : Event) :
    (w.step env ev).1.dkgSender =
      match ev with
      | .command (.rotateKey s) => some (.rotateKey s)
      | _ => if (dkgCompletion env ev).isSome then none else w.dkgSender := by
  cases ev with
  | dkgMessage p => simp only [step, handleDkgMessage_fst]; split <;> rfl
  | signMessage p => simp only [step, handleSignMessage_fst]; split <;> rfl
  | command c =>
    cases c <;> simp [step, handleCommand]
    split <;> rfl

theorem step_signSender (w : Worker) (env : Env) (ev : Event) :
    (w.step env ev).1.signSender =
      match ev with
      | .command (.sign _ s) => if w.signSender.isSome then w.signSender else some (.sign s)
      | _ => if (signCompletion env ev).isSome then none else w.signSender := by
  cases ev with
  | dkgMessage p => simp only [step, handleDkgMessage_fst]; split <;> rfl
  | signMessage p => simp only [step, handleSignMessage_fst]; split <;> rfl
  | command c => cases c <;> simp [step, handleCommand]; split <;> rfl

theorem dkgCompletion_eq_some {env : Env} {ev : Event} {r : Except Error DkgVerifyingKey}
    (h : dkgCompletion env ev = some r) :
    ∃ p m, ev = .dkgMessage p ∧ DkgMessage.fromJson p = some (.dkgPart2 m) ∧
      roundResult (env.dkgPart2 m) = some r := by
  cases ev with
  | dkgMessage p =>
    simp only [dkgCompletion] at h
    split at h
    · exact ⟨p, _, rfl, ‹_›, h⟩
    · cases h
  | _ => simp at h

theorem signCompletion_eq_some {env : Env} {ev : Event} {r : Except Error DkgSignature}
    (h : signCompletion env ev = some r) :
    ∃ p m, ev = .signMessage p ∧ SignMessage.fromJson p = some (.signPart2 m) ∧
      roundResult (env.signPart2 m) = some r := by
  cases ev with
  | signMessage p =>
    simp only [signCompletion] at h
    split at h
    · exact ⟨p, _, rfl, ‹_›, h⟩
    · cases h
  | _ => simp at h

theorem sends_step_of_dkgCompletion {w : Worker} {env : Env} {ev : Event}
    {r : Except Error DkgVerifyingKey} (h : dkgCompletion env ev = some r) :
    sends (w.step env ev).2 = sends (handleSend w.dkgSender (.rotateKey r)) := by
  obtain ⟨p, -, rfl, -⟩ := dkgCompletion_eq_some h
  rw [step, sends_handleDkgMessage, h]

theorem sends_step_of_signCompletion {w : Worker} {env : Env} {ev : Event}
    {r : Except Error DkgSignature} (h : signCompletion env ev = some r) :
    sends (w.step env ev).2 = sends (handleSend w.signSender (.sign r)) := by
  obtain ⟨p, -, rfl, -⟩ := signCompletion_eq_some h
  rw [step, sends_handleSignMessage, h]

/-- `start_sign` is called by a `Sign` command that finds the `Sign` slot empty, and by
nothing else. -/
theorem startSign_mem_step {w : Worker} {env : Env} {ev : Event} {m : Bytes}
    (h : Effect.startSign m ∈ (w.step env ev).2) :
    w.signSender = none ∧ ∃ s, ev = .command (.sign m s) := by
  cases ev with
  | dkgMessage p =>
    rcases hd : DkgMessage.fromJson p with _ | (m | m)
    · simp [step, handleDkgMessage_of_none hd] at h
    · rw [step, handleDkgMessage_of_part1 hd] at h
      split at h <;> simp at h
    · rw [step, handleDkgMessage_of_part2 hd] at h
      split at h <;> simp at h
  | signMessage p =>
    rcases hd : SignMessage.fromJson p with _ | (m | m)
    · simp [step, handleSignMessage_of_none hd] at h
    · rw [step, handleSignMessage_of_part1 hd] at h
      split at h <;> simp at h
    · rw [step, handleSignMessage_of_part2 hd] at h
      split at h <;> simp at h
  | command c =>
    cases c with
    | rotateKey s =>
      simp only [step, handleCommand, startDkg] at h
      split at h <;> simp_all [serializeAndPublish]
    | sign message s =>
      simp only [step, handleCommand] at h
      split at h
      · simp at h
      · simp only [startSign] at h
        split at h <;> simp_all [serializeAndPublish]
    | _ => simp [step, handleCommand] at h

end Worker

end Redot.Validator
