import Redot.Validator.Slots

/-!
What the worker publishes, and whether a peer's handler reads it back. Every payload published
on `SIGN_TOPIC` decodes as a `SignMessage` (`sign_publications_decode`). On `DKG_TOPIC` every
payload decodes as a `DkgMessage` but one: when a `DkgPart2` leaves the round open, the worker
serializes the engine's `None` and publishes `null`, which no `handle_dkg_message` accepts.
-/

namespace Redot.Validator

/-- The payload an effect publishes on `topic`, if it is such a publish. -/
def Effect.published? (topic : String) : Effect → Option Payload
  | .publish t p => if t = topic then some p else none
  | _ => none

/-- The payloads a step's effects publish on `topic`, in order. -/
def published (topic : String) (es : List Effect) : List Payload :=
  es.filterMap (Effect.published? topic)

namespace Worker

@[simp] theorem published?_handleSend (topic : String) (q : Option QueryResultSender)
    (r : Reply) : (handleSend q r).filterMap (Effect.published? topic) = [] := by
  unfold handleSend
  split <;> rfl

theorem dkgTopic_ne_signTopic : dkgTopic ≠ signTopic := by decide

theorem mem_published {topic : String} {es : List Effect} {p : Payload} :
    p ∈ published topic es ↔ Effect.publish topic p ∈ es := by
  simp only [published, List.mem_filterMap]
  constructor
  · rintro ⟨e, he, hp⟩
    cases e <;> simp only [Effect.published?, Option.ite_none_right_eq_some, Option.some.injEq,
      reduceCtorEq] at hp
    obtain ⟨rfl, rfl⟩ := hp
    exact he
  · exact fun h => ⟨_, h, by simp [Effect.published?]⟩

@[simp] theorem publish_not_mem_handleSend (t : String) (p : Payload)
    (q : Option QueryResultSender) (r : Reply) : Effect.publish t p ∉ handleSend q r := fun h => by
  obtain ⟨_, h⟩ := mem_handleSend h
  cases h

/-- What a step can publish: on the DKG topic a serialized `DkgMessage`, or the `null` of a
`DkgPart2` that leaves its round open; on the Sign topic a serialized `SignMessage`. -/
theorem publish_mem_step {w : Worker} {env : Env} {ev : Event} {t : String} {p : Payload}
    (h : Effect.publish t p ∈ (w.step env ev).2) :
    (t = dkgTopic ∧ ((∃ m, DkgMessage.fromJson p = some m) ∨
      (p = .null ∧ ∃ q m, ev = .dkgMessage q ∧ DkgMessage.fromJson q = some (.dkgPart2 m) ∧
        env.dkgPart2 m = .ok none))) ∨
    (t = signTopic ∧ ∃ m, SignMessage.fromJson p = some m) := by
  cases ev with
  | dkgMessage q =>
    rcases hd : DkgMessage.fromJson q with _ | (m | m)
    · simp [step, handleDkgMessage_of_none hd] at h
    · rw [step, handleDkgMessage_of_part1 hd] at h
      split at h <;> simp at h
      obtain ⟨rfl, rfl⟩ := h
      simp
    · rw [step, handleDkgMessage_of_part2 hd] at h
      split at h
      · simp at h
      next hopen =>
        simp at h
        obtain ⟨rfl, rfl⟩ := h
        exact .inl ⟨rfl, .inr ⟨rfl, q, m, rfl, hd, roundResult_eq_none.mp hopen⟩⟩
  | signMessage q =>
    rcases hd : SignMessage.fromJson q with _ | (m | m)
    · simp [step, handleSignMessage_of_none hd] at h
    · rw [step, handleSignMessage_of_part1 hd] at h
      -- the engine's answer, if any, then the rebroadcast: each a serialized `SignMessage`
      obtain ⟨msg, rfl, rfl⟩ : ∃ msg : SignMessage, t = signTopic ∧ p = msg.toJson := by
        split at h <;> simp at h
        · rcases h with ⟨rfl, rfl⟩ | ⟨rfl, rfl⟩ <;> exact ⟨_, rfl, rfl⟩
        · exact ⟨_, h.1, h.2⟩
      exact .inr ⟨rfl, msg, by simp⟩
    · rw [step, handleSignMessage_of_part2 hd] at h
      split at h <;> simp at h
  | command c =>
    cases c with
    | rotateKey s =>
      simp only [step, handleCommand, startDkg] at h
      split at h <;> simp_all [serializeAndPublish]
    | sign message s =>
      simp only [step, handleCommand] at h
      split at h
      · simp at h
      · simp only [startSign] at h
        split at h <;> simp_all [serializeAndPublish]
    | _ => simp [step, handleCommand] at h

/-- **Sign-topic payloads decode.** Every payload any step publishes on `SIGN_TOPIC` is read
back by `serde_json::from_slice::<SignMessage>`. -/
theorem sign_publications_decode (w : Worker) (env : Env) (ev : Event) :
    ∀ p ∈ published signTopic (w.step env ev).2, ∃ m, SignMessage.fromJson p = some m := by
  intro p hp
  rcases publish_mem_step (mem_published.mp hp) with ⟨h, -⟩ | ⟨-, hm⟩
  · exact absurd h dkgTopic_ne_signTopic.symm
  · exact hm

theorem sign_publications_decode_on_sign :
    (SignMessage.signPart1 ⟨.null⟩).toJson ∈ published signTopic
        (Worker.new.step { failingEnv with startSign := fun _ => .ok (.signPart1 ⟨.null⟩) }
          (.command (.sign [] ⟨0⟩))).2 ∧
      ∃ m, SignMessage.fromJson (SignMessage.signPart1 ⟨.null⟩).toJson = some m :=
  ⟨by decide, sign_publications_decode Worker.new
    { failingEnv with startSign := fun _ => .ok (.signPart1 ⟨.null⟩) } (.command (.sign [] ⟨0⟩)) _
    (by decide)⟩

/-- What a step publishes on `SIGN_TOPIC`: for a `SignPart1` payload, the engine's answer if it
has one, then the rebroadcast; for a `Sign` command that finds the slot empty, `start_sign`'s
message if it has one; nothing for any other event. -/
theorem published_signTopic_step (w : Worker) (env : Env) (ev : Event) :
    published signTopic (w.step env ev).2 =
      match ev with
      | .signMessage p =>
        match SignMessage.fromJson p with
        | some (.signPart1 m) =>
          (match env.signPart1 m with
            | .ok msg => [msg.toJson]
            | .error _ => []) ++ [(SignMessage.signPart1 m).toJson]
        | _ => []
      | .command (.sign message _) =>
        if w.signSender.isSome then []
        else match env.startSign message with
          | .ok msg => [msg.toJson]
          | .error _ => []
      | _ => [] := by
  cases ev with
  | dkgMessage q =>
    rcases hd : DkgMessage.fromJson q with _ | (m | m)
    · simp [step, handleDkgMessage_of_none hd, published]
    · rw [step, handleDkgMessage_of_part1 hd]
      split <;> simp [published, Effect.published?, dkgTopic_ne_signTopic]
    · rw [step, handleDkgMessage_of_part2 hd]
      split <;> simp [published, Effect.published?, dkgTopic_ne_signTopic]
  | signMessage q =>
    rcases hd : SignMessage.fromJson q with _ | (m | m)
    · simp [step, handleSignMessage_of_none hd, published, hd]
    · rw [step, handleSignMessage_of_part1 hd]
      split <;> simp_all [published, Effect.published?]
    · rw [step, handleSignMessage_of_part2 hd]
      split <;> simp [published, Effect.published?, hd]
  | command c =>
    cases c with
    | rotateKey s =>
      simp only [step, handleCommand, startDkg]
      split <;> simp [published, Effect.published?, serializeAndPublish, dkgTopic_ne_signTopic]
    | sign message s =>
      simp only [step, handleCommand]
      split
      · simp [published, Effect.published?, *]
      · simp only [startSign]
        split <;> simp_all [published, Effect.published?, serializeAndPublish]
    | _ => simp [step, handleCommand, published, Effect.published?]

/-- What a step publishes on `DKG_TOPIC`: for a `DkgPart1` payload, the engine's answer if it
has one; for a `DkgPart2` payload that leaves the round open, the `null` of `Ok (None)`; for a
`RotateKey` command, `start_dkg`'s message if it has one; nothing for any other event. -/
theorem published_dkgTopic_step (w : Worker) (env : Env) (ev : Event) :
    published dkgTopic (w.step env ev).2 =
      match ev with
      | .dkgMessage p =>
        match DkgMessage.fromJson p with
        | some (.dkgPart1 m) =>
          match env.dkgPart1 m with
          | .ok msg => [msg.toJson]
          | .error _ => []
        | some (.dkgPart2 m) =>
          match env.dkgPart2 m with
          | .ok none => [.null]
          | _ => []
        | none => []
      | .command (.rotateKey _) =>
        match env.startDkg with
        | .ok msg => [msg.toJson]
        | .error _ => []
      | _ => [] := by
  cases ev with
  | dkgMessage q =>
    rcases hd : DkgMessage.fromJson q with _ | (m | m)
    · simp [step, handleDkgMessage_of_none hd, published, hd]
    · rw [step, handleDkgMessage_of_part1 hd]
      split <;> simp_all [published, Effect.published?]
    · rw [step, handleDkgMessage_of_part2 hd]
      rcases hr : env.dkgPart2 m with e | _ | key <;>
        simp [hd, hr, roundResult, published, Effect.published?]
  | signMessage q =>
    rcases hd : SignMessage.fromJson q with _ | (m | m)
    · simp [step, handleSignMessage_of_none hd, published]
    · rw [step, handleSignMessage_of_part1 hd]
      split <;> simp [published, Effect.published?, dkgTopic_ne_signTopic.symm]
    · rw [step, handleSignMessage_of_part2 hd]
      split <;> simp [published, Effect.published?]
  | command c =>
    cases c with
    | rotateKey s =>
      simp only [step, handleCommand, startDkg]
      split <;> simp_all [published, Effect.published?, serializeAndPublish]
    | sign message s =>
      simp only [step, handleCommand]
      split
      · simp [published, Effect.published?]
      · simp only [startSign]
        split <;> simp [published, Effect.published?, serializeAndPublish, dkgTopic_ne_signTopic.symm]
    | _ => simp [step, handleCommand, published, Effect.published?]

/-- **DKG-topic payloads decode but `null`.** Every payload a step publishes on `DKG_TOPIC` is
read back by `serde_json::from_slice::<DkgMessage>` or is `null`, and `null` is published exactly
when a `DkgPart2` gets `Ok(None)` from the engine. -/
theorem dkg_publications_decode_or_null (w : Worker) (env : Env) (ev : Event) :
    (∀ p ∈ published dkgTopic (w.step env ev).2,
      (∃ m, DkgMessage.fromJson p = some m) ∨ p = .null) ∧
    (Json.null ∈ published dkgTopic (w.step env ev).2 ↔
      ∃ q m, ev = .dkgMessage q ∧ DkgMessage.fromJson q = some (.dkgPart2 m) ∧
        env.dkgPart2 m = .ok none) := by
  refine ⟨fun p hp => ?_, ⟨fun hp => ?_, ?_⟩⟩
  · rcases publish_mem_step (mem_published.mp hp) with ⟨-, hm | ⟨rfl, -⟩⟩ | ⟨h, -⟩
    · exact .inl hm
    · exact .inr rfl
    · exact absurd h dkgTopic_ne_signTopic
  · rcases publish_mem_step (mem_published.mp hp) with ⟨-, ⟨m, hm⟩ | ⟨-, hopen⟩⟩ | ⟨h, -⟩
    · simp at hm
    · exact hopen
    · exact absurd h dkgTopic_ne_signTopic
  · rintro ⟨q, m, rfl, hd, hopen⟩
    simp [published_dkgTopic_step, hd, hopen]

theorem dkg_publications_decode_or_null_open_round :
    let env : Env := { failingEnv with dkgPart2 := fun _ => .ok none }
    let ev := Event.dkgMessage (DkgMessage.dkgPart2 ⟨.null⟩).toJson
    (∀ p ∈ published dkgTopic (Worker.new.step env ev).2,
      (∃ m, DkgMessage.fromJson p = some m) ∨ p = .null) ∧
    (Json.null ∈ published dkgTopic (Worker.new.step env ev).2 ↔
      ∃ q m, ev = .dkgMessage q ∧ DkgMessage.fromJson q = some (.dkgPart2 m) ∧
        env.dkgPart2 m = .ok none) :=
  dkg_publications_decode_or_null Worker.new _ _

/-- **`null` on the DKG topic.** A fresh worker handed a `DkgPart2` whose engine result is
`Ok (None)` publishes `null` on `DKG_TOPIC`, which `serde_json::from_slice::<DkgMessage>`
rejects, so every peer drops it. -/
theorem open_dkg_round_publishes_null :
    (Worker.new.step { failingEnv with dkgPart2 := fun _ => .ok none }
        (.dkgMessage (DkgMessage.dkgPart2 ⟨.null⟩).toJson)).2 =
      [.dkgPart2 ⟨.null⟩, .publish dkgTopic .null] ∧
    DkgMessage.fromJson .null = none :=
  ⟨rfl, rfl⟩

end Worker

end Redot.Validator
