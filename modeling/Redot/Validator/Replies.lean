import Mathlib.Data.List.Nodup
import Redot.Validator.Slots

/-!
The reply channels as `Service` (service.rs) sees them. Every method of `Service` makes a new
`oneshot` channel, sends one command carrying it to the worker, and waits on the receiver with
`receiver.await.context("Failed to receive response from worker")`.

`Replies` is what holds of the worker and the replies it has sent after any run whose commands
carry distinct channels; `Replies.step` keeps it and `Replies.run` carries it over a run. From
it, `run_replies`: no channel gets two replies, every reply has the type of its command's
channel, and every call but `rotate_key` gets its reply or is the one still pending in the
`Sign` slot, so only a `rotate_key` caller can see its channel dropped. `RotateKeysAccounted`
says when: `rotateKey_failed_superseded` shows that a `rotate_key` caller sees the channel dropped
only when a later `RotateKey` command came after its own.
-/

namespace Redot.Validator

/-- The channel a slot keeps. -/
def QueryResultSender.channel : QueryResultSender → Sender
  | .rotateKey ch => ch
  | .sign ch => ch

/-- The reply channel a command carries. -/
def Command.sender : Command → Sender
  | .rotateKey sender => sender
  | .sign _ sender => sender
  | .setup _ sender => sender
  | .removeValidators _ sender => sender
  | .addValidators _ sender => sender

/-- Whether `r` has the type that the channel of `c` carries. -/
def Command.replyFits : Command → Reply → Bool
  | .rotateKey _, .rotateKey _ => true
  | .sign _ _, .sign _ => true
  | .setup _ _, .unit _ => true
  | .removeValidators _ _, .unit _ => true
  | .addValidators _ _, .unit _ => true
  | _, _ => false

def Event.command? : Event → Option Command
  | .command c => some c
  | _ => none

/-- The commands of a run, in order. -/
def commands (steps : List (Env × Event)) : List Command := steps.filterMap (·.2.command?)

/-- The replies a run's effects send, in order. -/
def replies (effects : List (List Effect)) : List (Sender × Reply) := effects.flatMap sends

/-- Whether one of the worker's slots keeps the channel `ch`. -/
def Worker.holds (w : Worker) (ch : Sender) : Prop :=
  w.dkgSender.map QueryResultSender.channel = some ch ∨
    w.signSender.map QueryResultSender.channel = some ch

instance (w : Worker) (ch : Sender) : Decidable (w.holds ch) :=
  inferInstanceAs (Decidable (_ ∨ _))

/-- `oneshot::Canceled` under the context `Service` gives it. -/
def failedToReceive : Error :=
  .context (.msg "Failed to receive response from worker") (.dependency "oneshot canceled")

/-- What `receiver.await.context(..)` in a `Service` method yields for the channel `ch` once
the worker `w` has sent `sent`: the first reply on `ch`; while a slot keeps `ch`, nothing yet;
and once the worker has dropped `ch` unanswered, the `Canceled` error. -/
def Service.receive (w : Worker) (sent : List (Sender × Reply)) (ch : Sender) :
    Option (Except Error Reply) :=
  match sent.find? (·.1 == ch) with
  | some x => some (.ok x.2)
  | none => if w.holds ch then none else some (.error failedToReceive)

@[simp] theorem commands_nil : commands [] = [] := rfl

theorem commands_cons (x : Env × Event) (steps : List (Env × Event)) :
    commands (x :: steps) = x.2.command?.toList ++ commands steps := by
  obtain ⟨env, ev⟩ := x
  cases ev <;> rfl

@[simp] theorem replies_nil : replies [] = [] := rfl

@[simp] theorem replies_cons (es : List Effect) (effects : List (List Effect)) :
    replies (es :: effects) = sends es ++ replies effects := List.flatMap_cons _ _ _

/-- A channel that has a reply, or that a slot keeps, is never reported dropped. -/
theorem Service.receive_ne_failed {w : Worker} {sent : List (Sender × Reply)} {ch : Sender}
    (h : ch ∈ sent.map Prod.fst ∨ w.holds ch) :
    Service.receive w sent ch ≠ some (.error failedToReceive) := by
  unfold Service.receive
  split
  · simp
  next hnone =>
    rw [List.find?_eq_none] at hnone
    rcases h with hsent | hheld
    · obtain ⟨x, hx, rfl⟩ := List.mem_map.mp hsent
      exact absurd (beq_self_eq_true x.1) (hnone x hx)
    · simp [hheld]

namespace Worker

/-! ## The invariant -/

/-- After the commands `cmds`, on distinct channels, have been handled and the replies `sent`
made: each channel has at most one reply, and that reply goes to a command's channel with the
type it carries; each slot keeps the channel of a command of its own kind that has no reply;
and every command but `RotateKey` has its reply or is the one the `Sign` slot keeps. -/
structure Replies (w : Worker) (cmds : List Command) (sent : List (Sender × Reply)) : Prop where
  fresh : (cmds.map Command.sender).Nodup
  once : (sent.map Prod.fst).Nodup
  fits : ∀ x ∈ sent, ∃ c ∈ cmds, c.sender = x.1 ∧ c.replyFits x.2 = true
  dkg : ∀ q ∈ w.dkgSender, ∃ ch, q = .rotateKey ch ∧ Command.rotateKey ch ∈ cmds ∧
    ch ∉ sent.map Prod.fst
  sign : ∀ q ∈ w.signSender, ∃ m ch, q = .sign ch ∧ Command.sign m ch ∈ cmds ∧
    ch ∉ sent.map Prod.fst
  answered : ∀ c ∈ cmds, (∀ s, c ≠ .rotateKey s) →
    c.sender ∈ sent.map Prod.fst ∨ w.signSender = some (.sign c.sender)

theorem replies_new : Replies Worker.new [] [] :=
  ⟨List.nodup_nil, List.nodup_nil, by simp, by simp [Worker.new], by simp [Worker.new], by simp⟩

variable {w : Worker} {cmds : List Command} {sent : List (Sender × Reply)}

theorem nodup_append_singleton {α : Type} {l : List α} {a : α} :
    (l ++ [a]).Nodup ↔ l.Nodup ∧ a ∉ l := by
  simp [List.nodup_append, and_comm]

/-- A channel no command carried has no reply. -/
theorem Replies.not_mem_sent (h : Replies w cmds sent) {s : Sender}
    (hs : s ∉ cmds.map Command.sender) : s ∉ sent.map Prod.fst := by
  intro hsent
  obtain ⟨x, hx, rfl⟩ := List.mem_map.mp hsent
  obtain ⟨c, hc, he, -⟩ := h.fits x hx
  exact hs (List.mem_map.mpr ⟨c, hc, he⟩)

theorem Replies.sender_mem {c : Command} (hc : c ∈ cmds) : c.sender ∈ cmds.map Command.sender :=
  List.mem_map_of_mem _ hc

/-- Distinct commands of a run carry distinct channels. -/
theorem Replies.sender_ne (h : Replies w cmds sent) {c c' : Command} (hc : c ∈ cmds)
    (hc' : c' ∈ cmds) (hne : c ≠ c') : c.sender ≠ c'.sender :=
  fun he => hne (List.inj_on_of_nodup_map h.fresh hc hc' he)

theorem fresh_last {c : Command} (hfresh : ((cmds ++ [c]).map Command.sender).Nodup) :
    c.sender ∉ cmds.map Command.sender := by
  rw [List.map_append, List.map_singleton, nodup_append_singleton] at hfresh
  exact hfresh.2

theorem Replies.fits_append (h : Replies w cmds sent) (l : List Command) :
    ∀ x ∈ sent, ∃ c ∈ cmds ++ l, c.sender = x.1 ∧ c.replyFits x.2 = true := fun x hx => by
  obtain ⟨c, hc, he, hf⟩ := h.fits x hx
  exact ⟨c, List.mem_append_left _ hc, he, hf⟩

/-- A reply on the channel of a command that has none yet, with the type that channel carries,
keeps each channel to one reply and every reply fitting a command of `cmds'`, any list that
extends `cmds` with the command. -/
theorem Replies.append_reply (h : Replies w cmds sent) {cmds' : List Command} (hsub : cmds ⊆ cmds')
    {c : Command} (hc : c ∈ cmds') (hsent : c.sender ∉ sent.map Prod.fst) {r : Reply}
    (hfits : c.replyFits r = true) :
    ((sent ++ [(c.sender, r)]).map Prod.fst).Nodup ∧
      ∀ x ∈ sent ++ [(c.sender, r)], ∃ c' ∈ cmds', c'.sender = x.1 ∧ c'.replyFits x.2 = true := by
  refine ⟨?_, fun x hx => ?_⟩
  · rw [List.map_append, List.map_singleton, nodup_append_singleton]
    exact ⟨h.once, hsent⟩
  · rcases List.mem_append.mp hx with hx | hx
    · obtain ⟨c', hc', he, hf⟩ := h.fits x hx
      exact ⟨c', hsub hc', he, hf⟩
    · obtain rfl := List.mem_singleton.mp hx
      exact ⟨c, hc, rfl, hfits⟩

/-- A new command answered at once, the worker unchanged. -/
theorem Replies.reply (h : Replies w cmds sent) {c : Command} {r : Reply}
    (hfresh : ((cmds ++ [c]).map Command.sender).Nodup) (hfits : c.replyFits r = true) :
    Replies w (cmds ++ [c]) (sent ++ [(c.sender, r)]) := by
  have hc := fresh_last hfresh
  have hne : ∀ c' ∈ cmds, c'.sender ≠ c.sender := fun c' hc' he => hc (he ▸ Replies.sender_mem hc')
  obtain ⟨hone, hfits'⟩ := h.append_reply (List.subset_append_left _ _)
    (List.mem_append_right _ (List.mem_singleton_self _)) (h.not_mem_sent hc) hfits
  refine ⟨hfresh, hone, hfits', ?_, ?_, ?_⟩
  · intro q hq
    obtain ⟨ch, rfl, hcmd, hsent⟩ := h.dkg q hq
    refine ⟨ch, rfl, List.mem_append_left _ hcmd, ?_⟩
    simp [hsent, show ch ≠ c.sender from hne _ hcmd]
  · intro q hq
    obtain ⟨m, ch, rfl, hcmd, hsent⟩ := h.sign q hq
    refine ⟨m, ch, rfl, List.mem_append_left _ hcmd, ?_⟩
    simp [hsent, show ch ≠ c.sender from hne _ hcmd]
  · simp only [List.mem_append, List.mem_singleton, List.map_append, List.map_cons, List.map_nil]
    rintro c' (hc' | rfl) hrot
    · rcases h.answered c' hc' hrot with hs | hs
      · exact .inl (.inl hs)
      · exact .inr hs
    · exact .inl (.inr rfl)

/-- A new `RotateKey` parked in its slot, over whatever the slot held. -/
theorem Replies.park_dkg (h : Replies w cmds sent) {s : Sender}
    (hfresh : ((cmds ++ [Command.rotateKey s]).map Command.sender).Nodup) :
    Replies { w with dkgSender := some (.rotateKey s) } (cmds ++ [.rotateKey s]) sent := by
  refine ⟨hfresh, h.once, h.fits_append _, fun q hq => ?_, fun q hq => ?_, ?_⟩
  · obtain rfl := Option.mem_some_iff.mp hq
    exact ⟨s, rfl, List.mem_append_right _ (List.mem_singleton_self _),
      h.not_mem_sent (fresh_last hfresh)⟩
  · obtain ⟨m, ch, rfl, hcmd, hsent⟩ := h.sign q hq
    exact ⟨m, ch, rfl, List.mem_append_left _ hcmd, hsent⟩
  · simp only [List.mem_append, List.mem_singleton]
    rintro c (hc | rfl) hrot
    · exact h.answered c hc hrot
    · exact absurd rfl (hrot s)

/-- A new `Sign` parked in the empty `Sign` slot. -/
theorem Replies.park_sign (h : Replies w cmds sent) (hfree : w.signSender = none) {m : Bytes}
    {s : Sender} (hfresh : ((cmds ++ [Command.sign m s]).map Command.sender).Nodup) :
    Replies { w with signSender := some (.sign s) } (cmds ++ [.sign m s]) sent := by
  refine ⟨hfresh, h.once, h.fits_append _, fun q hq => ?_, fun q hq => ?_, ?_⟩
  · obtain ⟨ch, rfl, hcmd, hsent⟩ := h.dkg q hq
    exact ⟨ch, rfl, List.mem_append_left _ hcmd, hsent⟩
  · obtain rfl := Option.mem_some_iff.mp hq
    exact ⟨m, s, rfl, List.mem_append_right _ (List.mem_singleton_self _),
      h.not_mem_sent (fresh_last hfresh)⟩
  · simp only [List.mem_append, List.mem_singleton]
    rintro c (hc | rfl) hrot
    · rcases h.answered c hc hrot with hs | hs
      · exact .inl hs
      · simp [hfree] at hs
    · exact .inr rfl

/-- A completed DKG round: the `RotateKey` slot is emptied, and its channel gets the result. -/
theorem Replies.complete_dkg (h : Replies w cmds sent) (r : Except Error DkgVerifyingKey) :
    Replies { w with dkgSender := none } cmds
      (sent ++ sends (handleSend w.dkgSender (.rotateKey r))) := by
  cases hq : w.dkgSender with
  | none =>
    obtain ⟨d, s⟩ := w
    simp only at hq
    subst hq
    simpa [handleSend, sends] using h
  | some q =>
    obtain ⟨ch, rfl, hcmd, hsent⟩ := h.dkg q hq
    obtain ⟨hone, hfits⟩ := h.append_reply (List.Subset.refl _) hcmd hsent
      (show (Command.rotateKey ch).replyFits (.rotateKey r) = true from rfl)
    refine ⟨h.fresh, hone, hfits, by simp, fun q' hq' => ?_, ?_⟩
    · obtain ⟨m, ch', rfl, hcmd', hsent'⟩ := h.sign q' hq'
      have hne : ch' ≠ ch := h.sender_ne hcmd' hcmd (by simp)
      exact ⟨m, ch', rfl, hcmd', by simp [handleSend, sends, Effect.send?, hsent', hne]⟩
    · intro c hc hrot
      rcases h.answered c hc hrot with hs | hs
      · exact .inl (by simp [hs])
      · exact .inr hs

/-- A completed signing round: the `Sign` slot is emptied, and its channel gets the result. -/
theorem Replies.complete_sign (h : Replies w cmds sent) (r : Except Error DkgSignature) :
    Replies { w with signSender := none } cmds
      (sent ++ sends (handleSend w.signSender (.sign r))) := by
  cases hq : w.signSender with
  | none =>
    obtain ⟨d, s⟩ := w
    simp only at hq
    subst hq
    simpa [handleSend, sends] using h
  | some q =>
    obtain ⟨m, ch, rfl, hcmd, hsent⟩ := h.sign q hq
    obtain ⟨hone, hfits⟩ := h.append_reply (List.Subset.refl _) hcmd hsent
      (show (Command.sign m ch).replyFits (.sign r) = true from rfl)
    refine ⟨h.fresh, hone, hfits, fun q' hq' => ?_, by simp, ?_⟩
    · obtain ⟨ch', rfl, hcmd', hsent'⟩ := h.dkg q' hq'
      have hne : ch' ≠ ch := h.sender_ne hcmd' hcmd (by simp)
      exact ⟨ch', rfl, hcmd', by simp [handleSend, sends, Effect.send?, hsent', hne]⟩
    · intro c hc hrot
      rcases h.answered c hc hrot with hs | hs
      · exact .inl (by simp [hs])
      · -- the channel the slot kept is the one answered now
        obtain rfl : ch = c.sender := by simpa [hq] using hs
        exact .inl (by simp [handleSend, sends, Effect.send?])

theorem sends_startDkg (env : Env) : sends (startDkg env) = [] := by
  unfold startDkg
  split <;> rfl

theorem sends_startSign (env : Env) (message : Bytes) : sends (startSign env message) = [] := by
  unfold startSign
  split <;> rfl

/-! ## Over a run -/

/-- **The step lemma.** A step whose command, if any, carries a new channel keeps `Replies`. -/
theorem Replies.step (h : Replies w cmds sent) (env : Env) (ev : Event)
    (hfresh : ((cmds ++ ev.command?.toList).map Command.sender).Nodup) :
    Replies (w.step env ev).1 (cmds ++ ev.command?.toList) (sent ++ sends (w.step env ev).2) := by
  cases ev with
  | dkgMessage p =>
    rw [Worker.step, handleDkgMessage_fst, sends_handleDkgMessage]
    cases dkgCompletion env (.dkgMessage p) with
    | none => simpa [Event.command?] using h
    | some r => simpa [Event.command?] using h.complete_dkg r
  | signMessage p =>
    rw [Worker.step, handleSignMessage_fst, sends_handleSignMessage]
    cases signCompletion env (.signMessage p) with
    | none => simpa [Event.command?] using h
    | some r => simpa [Event.command?] using h.complete_sign r
  | command c =>
    cases c with
    | rotateKey s => simpa [Worker.step, handleCommand, sends_startDkg] using h.park_dkg hfresh
    | sign m s =>
      simp only [Worker.step, handleCommand]
      split
      · exact h.reply hfresh rfl
      next hfree =>
        simpa [sends_startSign] using h.park_sign (Option.not_isSome_iff_eq_none.mp hfree) hfresh
    | setup nt s => exact h.reply hfresh rfl
    | removeValidators validators s => exact h.reply hfresh rfl
    | addValidators validators s => exact h.reply hfresh rfl

/-- **The run lemma.** A run whose commands carry new channels keeps `Replies`. -/
theorem Replies.run (h : Replies w cmds sent) (steps : List (Env × Event))
    (hfresh : ((cmds ++ commands steps).map Command.sender).Nodup) :
    Replies (w.run steps).1 (cmds ++ commands steps) (sent ++ replies (w.run steps).2) := by
  induction steps generalizing w cmds sent with
  | nil => simpa [Worker.run] using h
  | cons x rest ih =>
    obtain ⟨env, ev⟩ := x
    rw [commands_cons, ← List.append_assoc] at hfresh ⊢
    have hstep := h.step env ev (List.map_append _ _ _ ▸ hfresh).of_append_left
    simpa [Worker.run, List.append_assoc] using ih hstep hfresh

end Worker

/-- **Replies over a run.** Over every run from `Worker::new` whose commands carry distinct
channels, no channel gets two replies, each reply has its channel's type, and every call but
`rotate_key` is answered or pending in the `Sign` slot. -/
theorem run_replies (steps : List (Env × Event))
    (hfresh : ((commands steps).map Command.sender).Nodup) :
    ((replies (Worker.new.run steps).2).map Prod.fst).Nodup ∧
    (∀ x ∈ replies (Worker.new.run steps).2,
      ∃ c ∈ commands steps, c.sender = x.1 ∧ c.replyFits x.2 = true) ∧
    ∀ c ∈ commands steps, (∀ s, c ≠ .rotateKey s) →
      Service.receive (Worker.new.run steps).1 (replies (Worker.new.run steps).2) c.sender ≠
        some (.error failedToReceive) := by
  have h := Worker.replies_new.run steps (by simpa using hfresh)
  simp only [List.nil_append] at h
  refine ⟨h.once, h.fits, fun c hc hrot => Service.receive_ne_failed ?_⟩
  rcases h.answered c hc hrot with hs | hs
  · exact .inl hs
  · exact .inr (.inr (by simp [hs, QueryResultSender.channel]))

/-- A `rotate_key` caller is the exception: a second `RotateKey` drops the first channel. -/
example :
    let r := Worker.new.run [(Worker.failingEnv, .command (.rotateKey ⟨0⟩)),
      (Worker.failingEnv, .command (.rotateKey ⟨1⟩))]
    Service.receive r.1 (replies r.2) ⟨0⟩ = some (.error failedToReceive) := rfl

/-- A pending `Sign`, a second `Sign` turned away as busy, a `Setup`, and a failing
`SignPart2` that completes the pending round. -/
def busySignRun : List (Env × Event) :=
  [(Worker.failingEnv, .command (.sign [] ⟨0⟩)), (Worker.failingEnv, .command (.sign [] ⟨1⟩)),
    (Worker.failingEnv, .command (.setup (2, 3) ⟨2⟩)),
    (Worker.failingEnv, .signMessage (SignMessage.signPart2 ⟨.null⟩).toJson)]

theorem run_replies_busySignRun :
    ((commands busySignRun).map Command.sender).Nodup ∧
    ((replies (Worker.new.run busySignRun).2).map Prod.fst).Nodup ∧
    (∀ x ∈ replies (Worker.new.run busySignRun).2,
      ∃ c ∈ commands busySignRun, c.sender = x.1 ∧ c.replyFits x.2 = true) ∧
    ∀ c ∈ commands busySignRun, (∀ s, c ≠ .rotateKey s) →
      Service.receive (Worker.new.run busySignRun).1 (replies (Worker.new.run busySignRun).2)
        c.sender ≠ some (.error failedToReceive) :=
  ⟨by decide, run_replies busySignRun (by decide)⟩

/-! ## Where a `rotate_key` caller goes -/

namespace Worker

/-- Each `RotateKey` command of `cmds` has a reply on its channel, or has its channel in the
`RotateKey` slot, or was followed by a later `RotateKey`. -/
def RotateKeysAccounted (w : Worker) (cmds : List Command) (sent : List (Sender × Reply)) :
    Prop :=
  ∀ s, Command.rotateKey s ∈ cmds → s ∈ sent.map Prod.fst ∨ w.dkgSender = some (.rotateKey s) ∨
    ∃ s', List.Sublist [Command.rotateKey s, Command.rotateKey s'] cmds

theorem rotateKeysAccounted_new : RotateKeysAccounted Worker.new [] [] := fun _ h => by cases h

theorem RotateKeysAccounted.step (h : RotateKeysAccounted w cmds sent) (env : Env) (ev : Event) :
    RotateKeysAccounted (w.step env ev).1 (cmds ++ ev.command?.toList)
      (sent ++ sends (w.step env ev).2) := by
  intro s hmem
  rcases List.mem_append.mp hmem with hs | hs
  · clear hmem
    rcases h s hs with hsent | hheld | ⟨s', hlater⟩
    · exact .inl (by simp [hsent])
    · rw [step_dkgSender]
      split
      next s' => -- a new `RotateKey` takes the slot: `s` is superseded
        exact .inr (.inr ⟨s', (List.singleton_sublist.mpr hs).append (List.Sublist.refl _)⟩)
      · split
        next hdone =>
          -- the round completes and answers the channel the slot held
          obtain ⟨r, hr⟩ := Option.isSome_iff_exists.mp hdone
          refine .inl ?_
          rw [List.map_append, sends_step_of_dkgCompletion hr, hheld]
          simp [handleSend, sends, Effect.send?]
        · exact .inr (.inl hheld)
    · exact .inr (.inr ⟨s', hlater.trans (List.sublist_append_left _ _)⟩)
  · -- the new command itself is parked
    cases ev with
    | command c =>
      obtain rfl : Command.rotateKey s = c := by simpa [Event.command?] using hs
      exact .inr (.inl (by simp [step_dkgSender]))
    | _ => simp [Event.command?] at hs

theorem RotateKeysAccounted.run (h : RotateKeysAccounted w cmds sent) (steps : List (Env × Event)) :
    RotateKeysAccounted (w.run steps).1 (cmds ++ commands steps)
      (sent ++ replies (w.run steps).2) := by
  induction steps generalizing w cmds sent with
  | nil => simpa [Worker.run] using h
  | cons x rest ih =>
    obtain ⟨env, ev⟩ := x
    rw [commands_cons, ← List.append_assoc]
    simpa [Worker.run, List.append_assoc] using ih (h.step env ev)

end Worker

/-- **Only a superseded `rotate_key` call is dropped.** In every run of the worker from
`Worker::new`, a `rotate_key` caller whose call fails with "Failed to receive response from
worker" was superseded: a later `RotateKey` command followed its own. -/
theorem rotateKey_failed_superseded (steps : List (Env × Event)) (s : Sender)
    (hs : Command.rotateKey s ∈ commands steps)
    (hfail : Service.receive (Worker.new.run steps).1 (replies (Worker.new.run steps).2) s =
      some (.error failedToReceive)) :
    ∃ s', List.Sublist [Command.rotateKey s, Command.rotateKey s'] (commands steps) := by
  have h := Worker.rotateKeysAccounted_new.run steps
  simp only [List.nil_append] at h
  rcases h s hs with hsent | hheld | hlater
  · exact absurd hfail (Service.receive_ne_failed (.inl hsent))
  · exact absurd hfail (Service.receive_ne_failed
      (.inr (.inl (by simp [hheld, QueryResultSender.channel]))))
  · exact hlater

theorem rotateKey_failed_superseded_twice :
    Command.rotateKey ⟨0⟩ ∈ commands [(Worker.failingEnv, .command (.rotateKey ⟨0⟩)),
      (Worker.failingEnv, .command (.rotateKey ⟨1⟩))] ∧
    Service.receive (Worker.new.run [(Worker.failingEnv, .command (.rotateKey ⟨0⟩)),
        (Worker.failingEnv, .command (.rotateKey ⟨1⟩))]).1
      (replies (Worker.new.run [(Worker.failingEnv, .command (.rotateKey ⟨0⟩)),
        (Worker.failingEnv, .command (.rotateKey ⟨1⟩))]).2) ⟨0⟩ = some (.error failedToReceive) ∧
    ∃ s', List.Sublist [Command.rotateKey ⟨0⟩, Command.rotateKey s']
      (commands [(Worker.failingEnv, .command (.rotateKey ⟨0⟩)),
        (Worker.failingEnv, .command (.rotateKey ⟨1⟩))]) :=
  ⟨by decide, rfl, rotateKey_failed_superseded _ ⟨0⟩ (by decide) rfl⟩

end Redot.Validator
