import Redot.Validator.Worker

/-!
The reply slots over whole runs. Every reachable worker keeps each slot to its own variant
(`Reachable.inv`), so `handle_send!` never drops a channel of the other kind. From the two
slot lemmas of `Worker.lean`:

* `sign_request_busy_until_completion`: a pending `Sign` channel is kept, and every later
  `Sign` is turned away without calling `start_sign`, until the round completes, and then the
  channel gets exactly the round's result;
* `step_slot_frame`: each kind of event touches only the slots the spec gives it.

The `RotateKey` path has no busy check: a second `RotateKey` restarts key generation and
overwrites the slot, dropping the first caller's channel, and a round that fails to start still
parks its caller.
-/

namespace Redot.Validator

namespace Worker

/-- The slots hold the variants the worker stores in them: the `RotateKey` slot only
`RotateKey` channels, the `Sign` slot only `Sign` channels. -/
structure Inv (w : Worker) : Prop where
  dkg : ∀ q ∈ w.dkgSender, ∃ ch, q = .rotateKey ch
  sign : ∀ q ∈ w.signSender, ∃ ch, q = .sign ch

/-- The workers `Worker::run` reaches from `Worker::new`. -/
inductive Reachable : Worker → Prop
  | new : Reachable Worker.new
  | step {w : Worker} (env : Env) (ev : Event) : Reachable w → Reachable (w.step env ev).1

theorem inv_new : Inv Worker.new := ⟨by simp [Worker.new], by simp [Worker.new]⟩

theorem Inv.step {w : Worker} (hw : Inv w) (env : Env) (ev : Event) : Inv (w.step env ev).1 := by
  constructor
  · intro q hq
    rw [step_dkgSender] at hq
    split at hq
    · exact ⟨_, (Option.mem_some_iff.mp hq).symm⟩
    · split at hq
      · cases hq
      · exact hw.dkg q hq
  · intro q hq
    rw [step_signSender] at hq
    split at hq
    · split at hq
      · exact hw.sign q hq
      · exact ⟨_, (Option.mem_some_iff.mp hq).symm⟩
    · split at hq
      · cases hq
      · exact hw.sign q hq

theorem Reachable.inv {w : Worker} (hw : Reachable w) : Inv w := by
  induction hw with
  | new => exact inv_new
  | step env ev _ ih => exact ih.step env ev

/-! ## The `Sign` slot -/

/-- While the `Sign` slot holds `s` and the event completes no signing round, the slot keeps
`s`, `start_sign` is not called, and a `Sign` command is turned away as busy. -/
theorem step_sign_held {w : Worker} {s : Sender} (hw : w.signSender = some (.sign s))
    {env : Env} {ev : Event} (hopen : signCompletion env ev = none) :
    (w.step env ev).1.signSender = some (.sign s) ∧
    (∀ m s', ev = .command (.sign m s') →
      (w.step env ev).2 = [.send s' (.sign (.error anotherSignInProgress))]) ∧
    ∀ m, Effect.startSign m ∉ (w.step env ev).2 := by
  refine ⟨?_, fun m s' h => by simp [h, step, handleCommand, hw], fun m h => ?_⟩
  · rw [step_signSender]
    split <;> simp [hw, hopen]
  · have := (startSign_mem_step h).1
    simp [hw] at this

/-- A completing round empties the `Sign` slot and sends its result to the channel there. -/
theorem step_sign_completes {w : Worker} {s : Sender} (hw : w.signSender = some (.sign s))
    {env : Env} {ev : Event} {r : Except Error DkgSignature}
    (hdone : signCompletion env ev = some r) :
    (w.step env ev).1.signSender = none ∧ sends (w.step env ev).2 = [(s, .sign r)] := by
  refine ⟨?_, ?_⟩
  · rw [step_signSender]
    obtain ⟨p, -, rfl, -⟩ := signCompletion_eq_some hdone
    simp [hdone]
  · rw [sends_step_of_signCompletion hdone, hw]
    rfl

theorem run_sign_held {w : Worker} {s : Sender} (hw : w.signSender = some (.sign s))
    (steps : List (Env × Event)) (hopen : ∀ x ∈ steps, signCompletion x.1 x.2 = none) :
    (w.run steps).1.signSender = some (.sign s) ∧
    (∀ x ∈ steps.zip (w.run steps).2, ∀ m s', x.1.2 = .command (.sign m s') →
      x.2 = [.send s' (.sign (.error anotherSignInProgress))]) ∧
    ∀ es ∈ (w.run steps).2, ∀ m, Effect.startSign m ∉ es := by
  induction steps generalizing w with
  | nil => simp [run, hw]
  | cons x rest ih =>
    obtain ⟨h1, h2, h3⟩ := step_sign_held hw (hopen x (List.mem_cons_self _ _))
    obtain ⟨i1, i2, i3⟩ := ih h1 (fun y hy => hopen y (List.mem_cons_of_mem _ hy))
    refine ⟨i1, ?_, ?_⟩
    · simp only [run, List.zip_cons_cons, List.mem_cons]
      rintro y (rfl | hy)
      · exact h2
      · exact i2 y hy
    · simp only [run, List.mem_cons]
      rintro es (rfl | hes)
      · exact h3
      · exact i3 es hes

/-- **Busy until completion.** While no signing round completes, a `Sign` slot holding `s` keeps
it and every `Sign` command gets the busy error on its own channel; the first completing event
then empties the slot and sends its result to `s` alone. -/
theorem sign_request_busy_until_completion {w : Worker} {s : Sender}
    (hw : w.signSender = some (.sign s)) (steps : List (Env × Event))
    (hopen : ∀ x ∈ steps, signCompletion x.1 x.2 = none) {env : Env} {ev : Event}
    {r : Except Error DkgSignature} (hdone : signCompletion env ev = some r) :
    (w.run steps).1.signSender = some (.sign s) ∧
    (∀ x ∈ steps.zip (w.run steps).2, ∀ m s', x.1.2 = .command (.sign m s') →
      x.2 = [.send s' (.sign (.error anotherSignInProgress))]) ∧
    (∀ es ∈ (w.run steps).2, ∀ m, Effect.startSign m ∉ es) ∧
    ((w.run steps).1.step env ev).1.signSender = none ∧
    sends ((w.run steps).1.step env ev).2 = [(s, .sign r)] := by
  obtain ⟨h1, h2, h3⟩ := run_sign_held hw steps hopen
  exact ⟨h1, h2, h3, step_sign_completes h1 hdone⟩

/-- An engine and a network service that answer every call with an error. -/
def failingEnv : Env where
  startDkg := .error (.dependency "engine")
  dkgPart1 _ := .error (.dependency "engine")
  dkgPart2 _ := .error (.dependency "engine")
  startSign _ := .error (.dependency "engine")
  signPart1 _ := .error (.dependency "engine")
  signPart2 _ := .error (.dependency "engine")
  setNt _ _ := .error (.dependency "engine")
  removeValidators _ := .error (.dependency "network")
  newValidators _ := .error (.dependency "network")

/-- A pending `Sign` channel `⟨0⟩`, a second `Sign` on `⟨1⟩` turned away, then a failing
`SignPart2` that completes the round with its error. -/
theorem sign_request_busy_until_completion_at_failed_round :
    let w : Worker := ⟨none, some (.sign ⟨0⟩)⟩
    let steps := [(failingEnv, Event.command (.sign [] ⟨1⟩))]
    let ev := Event.signMessage (SignMessage.signPart2 ⟨.null⟩).toJson
    let r : Except Error DkgSignature := .error (.dependency "engine")
    (w.signSender = some (.sign ⟨0⟩) ∧ (∀ x ∈ steps, signCompletion x.1 x.2 = none) ∧
      signCompletion failingEnv ev = some r) ∧
    (w.run steps).1.signSender = some (.sign ⟨0⟩) ∧
    (∀ x ∈ steps.zip (w.run steps).2, ∀ m s', x.1.2 = .command (.sign m s') →
      x.2 = [.send s' (.sign (.error anotherSignInProgress))]) ∧
    (∀ es ∈ (w.run steps).2, ∀ m, Effect.startSign m ∉ es) ∧
    ((w.run steps).1.step failingEnv ev).1.signSender = none ∧
    sends ((w.run steps).1.step failingEnv ev).2 = [(⟨0⟩, .sign r)] :=
  ⟨⟨rfl, by simp, rfl⟩,
    @sign_request_busy_until_completion ⟨none, some (.sign ⟨0⟩)⟩ ⟨0⟩ rfl _ (by simp) failingEnv
      (.signMessage (SignMessage.signPart2 ⟨.null⟩).toJson) _ rfl⟩

/-! ## What each event may do to the slots -/

/-- The events the spec says touch neither slot: a payload that does not decode, a first-phase
message, a second-phase message whose round stays open, and `Setup`, `AddValidators` and
`RemoveValidators`. -/
inductive Quiet (env : Env) : Event → Prop
  | dkgUndecodable {p : Payload} : DkgMessage.fromJson p = none → Quiet env (.dkgMessage p)
  | signUndecodable {p : Payload} : SignMessage.fromJson p = none → Quiet env (.signMessage p)
  | dkgPart1 {p : Payload} {m : DkgPart1Message} :
      DkgMessage.fromJson p = some (.dkgPart1 m) → Quiet env (.dkgMessage p)
  | signPart1 {p : Payload} {m : SignPart1Message} :
      SignMessage.fromJson p = some (.signPart1 m) → Quiet env (.signMessage p)
  | dkgOpen {p : Payload} {m : DkgPart2Message} :
      DkgMessage.fromJson p = some (.dkgPart2 m) → env.dkgPart2 m = .ok none →
        Quiet env (.dkgMessage p)
  | signOpen {p : Payload} {m : SignPart2Message} :
      SignMessage.fromJson p = some (.signPart2 m) → env.signPart2 m = .ok none →
        Quiet env (.signMessage p)
  | setup (nt : UInt16 × UInt16) (s : Sender) : Quiet env (.command (.setup nt s))
  | addValidators (validators : List ValidatorId) (s : Sender) :
      Quiet env (.command (.addValidators validators s))
  | removeValidators (validators : List ValidatorId) (s : Sender) :
      Quiet env (.command (.removeValidators validators s))

theorem Quiet.step_eq {env : Env} {ev : Event} (h : Quiet env ev) (w : Worker) :
    (w.step env ev).1 = w := by
  cases h <;> simp_all [step, handleDkgMessage_fst, handleSignMessage_fst, dkgCompletion,
    signCompletion, roundResult, handleCommand]

/-- The `RotateKey` slot is emptied only by a round that completes, and the channel that was
there gets the round's result. -/
theorem step_dkg_emptied {w : Worker} (hw : Inv w) {q : QueryResultSender}
    (hq : w.dkgSender = some q) {env : Env} {ev : Event}
    (h : (w.step env ev).1.dkgSender = none) :
    ∃ ch r, q = .rotateKey ch ∧ dkgCompletion env ev = some r ∧
      sends (w.step env ev).2 = [(ch, .rotateKey r)] := by
  obtain ⟨ch, rfl⟩ := hw.dkg q hq
  rw [step_dkgSender] at h
  split at h
  · cases h
  · obtain ⟨r, hr⟩ : ∃ r, dkgCompletion env ev = some r := by
      split at h
      · exact Option.isSome_iff_exists.mp ‹_›
      · simp [hq] at h
    exact ⟨ch, r, rfl, hr, by rw [sends_step_of_dkgCompletion hr, hq]; rfl⟩

/-- The `Sign` slot is emptied only by a round that completes, and the channel that was there
gets the round's result. -/
theorem step_sign_emptied {w : Worker} (hw : Inv w) {q : QueryResultSender}
    (hq : w.signSender = some q) {env : Env} {ev : Event}
    (h : (w.step env ev).1.signSender = none) :
    ∃ ch r, q = .sign ch ∧ signCompletion env ev = some r ∧
      sends (w.step env ev).2 = [(ch, .sign r)] := by
  obtain ⟨ch, rfl⟩ := hw.sign q hq
  rw [step_signSender] at h
  split at h
  · split at h <;> simp_all
  · obtain ⟨r, hr⟩ : ∃ r, signCompletion env ev = some r := by
      split at h
      · exact Option.isSome_iff_exists.mp ‹_›
      · simp [hq] at h
    exact ⟨ch, r, rfl, hr, by rw [sends_step_of_signCompletion hr, hq]; rfl⟩

/-- **Slot frame.** Each topic's payloads touch only their own slot, `Quiet` events touch
neither, and a slot is emptied only by its own second-phase message with a closing result,
which goes to the channel the slot held. -/
theorem step_slot_frame {w : Worker} (hw : Reachable w) (env : Env) (ev : Event) :
    (∀ p, ev = .dkgMessage p → (w.step env ev).1.signSender = w.signSender) ∧
    (∀ p, ev = .signMessage p → (w.step env ev).1.dkgSender = w.dkgSender) ∧
    (Quiet env ev → (w.step env ev).1 = w) ∧
    (∀ q, w.dkgSender = some q → (w.step env ev).1.dkgSender = none →
      ∃ ch p m r, q = .rotateKey ch ∧ ev = .dkgMessage p ∧
        DkgMessage.fromJson p = some (.dkgPart2 m) ∧ roundResult (env.dkgPart2 m) = some r ∧
        sends (w.step env ev).2 = [(ch, .rotateKey r)]) ∧
    (∀ q, w.signSender = some q → (w.step env ev).1.signSender = none →
      ∃ ch p m r, q = .sign ch ∧ ev = .signMessage p ∧
        SignMessage.fromJson p = some (.signPart2 m) ∧ roundResult (env.signPart2 m) = some r ∧
        sends (w.step env ev).2 = [(ch, .sign r)]) := by
  refine ⟨?_, ?_, fun h => h.step_eq w, fun q hq h => ?_, fun q hq h => ?_⟩
  · rintro p rfl
    simp [step_signSender]
  · rintro p rfl
    simp [step_dkgSender]
  · obtain ⟨ch, r, rfl, hr, hs⟩ := step_dkg_emptied hw.inv hq h
    obtain ⟨p, m, rfl, hp, hm⟩ := dkgCompletion_eq_some hr
    exact ⟨ch, p, m, r, rfl, rfl, hp, hm, hs⟩
  · obtain ⟨ch, r, rfl, hr, hs⟩ := step_sign_emptied hw.inv hq h
    obtain ⟨p, m, rfl, hp, hm⟩ := signCompletion_eq_some hr
    exact ⟨ch, p, m, r, rfl, rfl, hp, hm, hs⟩

/-- The frame at the worker that one `RotateKey` reaches, under a failing `DkgPart2`. -/
theorem step_slot_frame_after_rotateKey :
    let w : Worker := ⟨some (.rotateKey ⟨0⟩), none⟩
    let ev := Event.dkgMessage (DkgMessage.dkgPart2 ⟨.null⟩).toJson
    Reachable w ∧
    (∀ p, ev = .dkgMessage p → (w.step failingEnv ev).1.signSender = w.signSender) ∧
    (∀ p, ev = .signMessage p → (w.step failingEnv ev).1.dkgSender = w.dkgSender) ∧
    (Quiet failingEnv ev → (w.step failingEnv ev).1 = w) ∧
    (∀ q, w.dkgSender = some q → (w.step failingEnv ev).1.dkgSender = none →
      ∃ ch p m r, q = .rotateKey ch ∧ ev = .dkgMessage p ∧
        DkgMessage.fromJson p = some (.dkgPart2 m) ∧ roundResult (failingEnv.dkgPart2 m) = some r ∧
        sends (w.step failingEnv ev).2 = [(ch, .rotateKey r)]) ∧
    (∀ q, w.signSender = some q → (w.step failingEnv ev).1.signSender = none →
      ∃ ch p m r, q = .sign ch ∧ ev = .signMessage p ∧
        SignMessage.fromJson p = some (.signPart2 m) ∧ roundResult (failingEnv.signPart2 m) = some r ∧
        sends (w.step failingEnv ev).2 = [(ch, .sign r)]) :=
  have hw : Reachable ⟨some (.rotateKey ⟨0⟩), none⟩ :=
    Reachable.step failingEnv (.command (.rotateKey ⟨0⟩)) .new
  ⟨hw, step_slot_frame hw failingEnv _⟩

/-! ## Where the `RotateKey` path differs -/

/-- **No busy check on `RotateKey`.** From the reachable worker whose `RotateKey` slot holds
`⟨0⟩`, a second `RotateKey` on `⟨1⟩` calls `start_dkg` again and publishes a new first-phase
message, sends `⟨1⟩` no error, and leaves `⟨1⟩`, not `⟨0⟩`, in the slot. -/
theorem rotateKey_while_pending_restarts_dkg :
    Reachable ⟨some (.rotateKey ⟨0⟩), none⟩ ∧
    (Worker.mk (some (.rotateKey ⟨0⟩)) none).step
        { failingEnv with startDkg := .ok (.dkgPart1 ⟨.null⟩) } (.command (.rotateKey ⟨1⟩)) =
      (⟨some (.rotateKey ⟨1⟩), none⟩,
        [.startDkg, .publish dkgTopic (DkgMessage.dkgPart1 ⟨.null⟩).toJson]) :=
  ⟨Reachable.step failingEnv (.command (.rotateKey ⟨0⟩)) .new, rfl⟩

/-- **A dropped channel.** Two `RotateKey` commands on a fresh worker: nothing is ever sent,
and the slot ends with `⟨1⟩`, so the first caller's channel `⟨0⟩` is neither answered nor
kept. -/
theorem second_rotateKey_drops_first_channel :
    Worker.new.run [(failingEnv, .command (.rotateKey ⟨0⟩)),
        (failingEnv, .command (.rotateKey ⟨1⟩))] =
      (⟨some (.rotateKey ⟨1⟩), none⟩, [[.startDkg], [.startDkg]]) := rfl

/-- **A round that never started parks its caller.** When `start_dkg` or `start_sign` fails,
the caller gets no error and its channel stays in the slot; for `Sign`, every later `Sign` is
then turned away as busy. -/
theorem failed_start_parks_caller :
    Worker.new.step failingEnv (.command (.rotateKey ⟨0⟩)) =
      (⟨some (.rotateKey ⟨0⟩), none⟩, [.startDkg]) ∧
    Worker.new.run [(failingEnv, .command (.sign [] ⟨0⟩)), (failingEnv, .command (.sign [] ⟨1⟩))] =
      (⟨none, some (.sign ⟨0⟩)⟩,
        [[.startSign []], [.send ⟨1⟩ (.sign (.error anotherSignInProgress))]]) :=
  ⟨rfl, rfl⟩

end Worker

end Redot.Validator
