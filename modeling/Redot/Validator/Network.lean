import Mathlib.Data.List.Pairwise
import Redot.Validator.Replies
import Redot.Validator.Publish

/-!
The validators as one system: `n` workers, each running `Worker::run` on the DKG and the Sign
gossip topics, with callers issuing commands to their own worker's `Service`. A network step is
one event handled by one worker, a delivery in flight or a command, in any order: gossip
promises no order between deliveries, and a delivery may wait forever.

* `run_project`: what each worker does in a network run is a run of the single worker on the
  events it handled, so every result about `Worker.run` holds of every worker of the network;
* `run_inv`: every delivery in flight goes to one of the `n` workers and is read back by its
  handler, but for the `null` of an open DKG round;
* `dkg_deliveries_le`: under an engine that answers a `DkgPart1` with a `DkgPart2`, as the spec
  describes the round, the DKG exchange quiesces: `RotateKey` commands to `n` workers cause at
  most `d * (1 + d * (1 + d))` DKG deliveries each, `d = n - 1`, in every interleaving. The Sign
  exchange has no such bound, since a `SignPart1` is re-published by each worker it reaches;
* `run_net_replies`: across the network, no reply channel gets two replies, and every call but
  `rotate_key` gets its reply or is pending at its worker.
-/

namespace Redot.Validator

/-- The gossip event a publication becomes at a subscriber: `Worker::run` reads the DKG and the
Sign topic and no other. -/
def Effect.gossip? : Effect → Option Event
  | .publish t p =>
    if t = dkgTopic then some (.dkgMessage p)
    else if t = signTopic then some (.signMessage p) else none
  | _ => none

def Event.isDkg : Event → Bool
  | .dkgMessage _ => true
  | _ => false

def Event.isRotateKey : Event → Bool
  | .command (.rotateKey _) => true
  | _ => false

/-- `n` workers: their states, and the gossip deliveries in flight as (recipient, event). -/
structure Net where
  workers : Nat → Worker
  inFlight : List (Nat × Event)

/-- What the network does next: the `k`-th delivery in flight reaches its recipient, or a caller
of worker `i`'s `Service` issues a command. -/
inductive Action
  | deliver (k : Nat)
  | command (i : Nat) (c : Command)
deriving DecidableEq, Repr

/-- One event handled by one worker, under the engine's answers `env`, with its step's effects. -/
structure Handled where
  worker : Nat
  env : Env
  event : Event
  effects : List Effect

def Handled.input (h : Handled) : Env × Event := (h.env, h.event)

namespace Net

def init : Net := ⟨fun _ => Worker.new, []⟩

/-- The workers other than `i`, to which gossip delivers what `i` publishes. -/
def peers (n i : Nat) : List Nat := (List.range n).erase i

/-- The worker an action hands an event to, and the network once a delivery is out of flight;
nothing for an index with no delivery or a worker that is not one of the `n`. -/
def take (n : Nat) (net : Net) : Action → Option (Net × Nat × Event)
  | .deliver k => net.inFlight[k]?.map fun x => (⟨net.workers, net.inFlight.eraseIdx k⟩, x)
  | .command i c => if i < n then some (net, i, .command c) else none

/-- The deliveries a step's publications make, from worker `i` to each of its peers. -/
def fanOut (n i : Nat) (es : List Effect) : List (Nat × Event) :=
  (es.filterMap Effect.gossip?).flatMap fun e => (peers n i).map (·, e)

/-- Worker `i` handles `ev` under `env`, and its publications go out to its peers. -/
def handle (n : Nat) (net : Net) (i : Nat) (env : Env) (ev : Event) : Net × Handled :=
  let r := (net.workers i).step env ev
  (⟨Function.update net.workers i r.1, net.inFlight ++ fanOut n i r.2⟩, ⟨i, env, ev, r.2⟩)

/-- One action under the engine's answers `env`, and what was handled, if anything. -/
def step (n : Nat) (net : Net) (a : Action) (env : Env) : Net × Option Handled :=
  match net.take n a with
  | none => (net, none)
  | some (net', i, ev) => let r := net'.handle n i env ev; (r.1, some r.2)

/-- Actions one after another: the last network and the log of the events handled. -/
def run (n : Nat) (net : Net) : List (Action × Env) → Net × List Handled
  | [] => (net, [])
  | (a, env) :: rest =>
    let r := net.step n a env
    let r' := run n r.1 rest
    (r'.1, r.2.toList ++ r'.2)

/-- The events of a log that worker `i` handled, with their answers, in order. -/
def handledBy (i : Nat) (log : List Handled) : List (Env × Event) :=
  (log.filter (·.worker = i)).map Handled.input

/-- The effects of the steps of a log that worker `i` took, in order. -/
def effectsOf (i : Nat) (log : List Handled) : List (List Effect) :=
  (log.filter (·.worker = i)).map (·.effects)

/-- A key rotation completes across two workers: worker `0`'s `DkgPart1` reaches worker `1`,
whose `DkgPart2` comes back and closes the round, and the caller gets the key. -/
example :
    let env : Env := { Worker.failingEnv with
      startDkg := .ok (.dkgPart1 ⟨.null⟩)
      dkgPart1 := fun _ => .ok (.dkgPart2 ⟨.null⟩)
      dkgPart2 := fun _ => .ok (some ⟨.null⟩) }
    let r := init.run 2 [(.command 0 (.rotateKey ⟨0⟩), env), (.deliver 0, env), (.deliver 0, env)]
    Service.receive (r.1.workers 0) (replies (r.2.map (·.effects))) ⟨0⟩ =
      some (.ok (.rotateKey (.ok ⟨.null⟩))) := by
  decide

variable {n : Nat} {net net₀ : Net} {a : Action} {env : Env} {i : Nat} {ev : Event}

/-! ## One step -/

theorem step_of_take_none (h : net.take n a = none) : net.step n a env = (net, none) := by
  simp [step, h]

theorem step_of_take_some (h : net.take n a = some (net₀, i, ev)) :
    net.step n a env = ((net₀.handle n i env ev).1, some (net₀.handle n i env ev).2) := by
  simp [step, h]

theorem take_workers (h : net.take n a = some (net₀, i, ev)) : net₀.workers = net.workers := by
  cases a with
  | deliver k =>
    obtain ⟨x, -, hx⟩ := Option.map_eq_some'.mp h
    cases hx
    rfl
  | command j c =>
    simp only [take] at h
    split at h <;> cases h
    rfl

@[simp] theorem handle_workers :
    (net.handle n i env ev).1.workers =
      Function.update net.workers i ((net.workers i).step env ev).1 := rfl

@[simp] theorem handle_inFlight :
    (net.handle n i env ev).1.inFlight =
      net.inFlight ++ fanOut n i ((net.workers i).step env ev).2 := rfl

@[simp] theorem handle_handled :
    (net.handle n i env ev).2 = ⟨i, env, ev, ((net.workers i).step env ev).2⟩ := rfl

theorem mem_peers {j : Nat} : j ∈ peers n i ↔ j < n ∧ j ≠ i := by
  rw [peers, (List.nodup_range n).mem_erase_iff, List.mem_range, and_comm]

theorem length_peers (hi : i < n) : (peers n i).length = n - 1 := by
  rw [peers, List.length_erase_of_mem (List.mem_range.mpr hi), List.length_range]

theorem mem_fanOut {es : List Effect} {x : Nat × Event} :
    x ∈ fanOut n i es ↔ x.1 ∈ peers n i ∧ ∃ e ∈ es, e.gossip? = some x.2 := by
  simp only [fanOut, List.mem_flatMap, List.mem_filterMap, List.mem_map]
  constructor
  · rintro ⟨g, ⟨e, he, hg⟩, j, hj, rfl⟩
    exact ⟨hj, e, he, hg⟩
  · rintro ⟨hj, e, he, hg⟩
    exact ⟨x.2, ⟨e, he, hg⟩, x.1, hj, rfl⟩

/-- A delivery in flight can be taken next. -/
theorem exists_take_of_mem (n : Nat) {x : Nat × Event} (hx : x ∈ net.inFlight) :
    ∃ k net₀, net.take n (.deliver k) = some (net₀, x.1, x.2) ∧ net₀.workers = net.workers := by
  obtain ⟨k, hk⟩ := List.mem_iff_getElem?.mp hx
  exact ⟨k, ⟨net.workers, net.inFlight.eraseIdx k⟩, by simp [take, hk], rfl⟩

/-- What worker `i` publishes is in flight to each of its peers. -/
theorem mem_handle_of_publish {j : Nat} (hj : j ∈ peers n i) {t : String} {p : Payload}
    {g : Event} (hg : (Effect.publish t p).gossip? = some g)
    (hp : Effect.publish t p ∈ ((net.workers i).step env ev).2) :
    (j, g) ∈ (net.handle n i env ev).1.inFlight :=
  List.mem_append_right _ (mem_fanOut.mpr ⟨hj, _, hp, hg⟩)

/-! ## Each worker runs on its own -/

@[simp] theorem run_nil : net.run n [] = (net, []) := rfl

theorem run_cons (x : Action × Env) (rest : List (Action × Env)) :
    net.run n (x :: rest) =
      (((net.step n x.1 x.2).1.run n rest).1,
        (net.step n x.1 x.2).2.toList ++ ((net.step n x.1 x.2).1.run n rest).2) := rfl

/-- What every step keeps, every run keeps. -/
theorem run_of_step (P : Net → Prop) (hstep : ∀ net a env, P net → P (net.step n a env).1)
    (h : P net) (steps : List (Action × Env)) : P (net.run n steps).1 := by
  induction steps generalizing net with
  | nil => exact h
  | cons x rest ih => exact ih (hstep net x.1 x.2 h)

/-- One step of the network is a step of worker `i`, if it handled the event, and leaves worker
`i` as it was otherwise. -/
theorem step_project (net : Net) (a : Action) (env : Env) (i : Nat) (steps : List (Env × Event)) :
    (net.workers i).run
        (((net.step n a env).2.toList.filter (·.worker = i)).map Handled.input ++ steps) =
      let r := ((net.step n a env).1.workers i).run steps
      (r.1, ((net.step n a env).2.toList.filter (·.worker = i)).map (·.effects) ++ r.2) := by
  cases ht : net.take n a with
  | none => simp [step_of_take_none ht]
  | some t =>
    obtain ⟨net₀, j, ev⟩ := t
    rw [step_of_take_some ht]
    by_cases hj : j = i
    · subst hj
      simp [Worker.run, Handled.input, take_workers ht]
    · simp [hj, Function.update_noteq (Ne.symm hj), take_workers ht]

/-- **Each worker runs on its own.** Over every network run, each worker's state and the
effects of its steps are those of the single worker run on the events it handled, in the order
it handled them. -/
theorem run_project (n : Nat) (net : Net) (steps : List (Action × Env)) (i : Nat) :
    ((net.run n steps).1.workers i, effectsOf i (net.run n steps).2) =
      (net.workers i).run (handledBy i (net.run n steps).2) := by
  induction steps generalizing net with
  | nil => rfl
  | cons x rest ih =>
    rw [run_cons]
    simp only [handledBy, effectsOf, List.filter_append, List.map_append]
    rw [step_project, ← handledBy, ← ih]
    rfl

/-! ## What is in flight -/

/-- A delivery its recipient reads back: a Sign payload that decodes as a `SignMessage`, or a
DKG payload that decodes as a `DkgMessage` or is the `null` of an open round. Commands are not
gossiped. -/
def Readable : Event → Prop
  | .dkgMessage p => (∃ m, DkgMessage.fromJson p = some m) ∨ p = .null
  | .signMessage p => ∃ m, SignMessage.fromJson p = some m
  | .command _ => False

/-- Every delivery in flight goes to one of the `n` workers and is readable. -/
structure Inv (n : Nat) (net : Net) : Prop where
  recipient : ∀ x ∈ net.inFlight, x.1 < n
  readable : ∀ x ∈ net.inFlight, Readable x.2

theorem inv_init : Inv n init := ⟨by simp [init], by simp [init]⟩

/-- What a worker gossips is readable. -/
theorem readable_of_gossip {w : Worker} {e : Effect} {g : Event}
    (he : e ∈ (w.step env ev).2) (hg : e.gossip? = some g) : Readable g := by
  cases e with
  | publish t p =>
    simp only [Effect.gossip?] at hg
    rcases Worker.publish_mem_step he with ⟨rfl, hp⟩ | ⟨rfl, hp⟩
    · cases hg
      exact hp.imp_right And.left
    · rw [if_neg Worker.dkgTopic_ne_signTopic.symm, if_pos rfl] at hg
      cases hg
      exact hp
  | _ => cases hg

theorem take_inv (hinv : Inv n net) (h : net.take n a = some (net₀, i, ev)) :
    Inv n net₀ ∧ i < n := by
  cases a with
  | deliver k =>
    obtain ⟨x, hx, he⟩ := Option.map_eq_some'.mp h
    cases he
    exact ⟨⟨fun y hy => hinv.recipient y (List.mem_of_mem_eraseIdx hy),
      fun y hy => hinv.readable y (List.mem_of_mem_eraseIdx hy)⟩,
      hinv.recipient _ (List.mem_iff_getElem?.mpr ⟨k, hx⟩)⟩
  | command j c =>
    simp only [take] at h
    split at h <;> cases h
    exact ⟨hinv, ‹_›⟩

theorem handle_inv (hinv : Inv n net) (i : Nat) (env : Env) (ev : Event) :
    Inv n (net.handle n i env ev).1 := by
  constructor <;> intro x hx <;> rcases List.mem_append.mp hx with hx | hx
  · exact hinv.recipient x hx
  · exact (mem_peers.mp (mem_fanOut.mp hx).1).1
  · exact hinv.readable x hx
  · obtain ⟨-, e, he, hg⟩ := mem_fanOut.mp hx
    exact readable_of_gossip he hg

theorem step_inv (hinv : Inv n net) (a : Action) (env : Env) : Inv n (net.step n a env).1 := by
  cases ht : net.take n a with
  | none => simpa [step_of_take_none ht] using hinv
  | some t =>
    obtain ⟨net₀, j, ev⟩ := t
    rw [step_of_take_some ht]
    exact handle_inv (take_inv hinv ht).1 j env ev

/-- **Gossip is read back.** In every network run from a network whose deliveries in flight are
so, every delivery in flight is addressed to one of the `n` workers, and its handler decodes it,
but for the `null` that a `DkgPart2` leaving its round open publishes. -/
theorem run_inv (hinv : Inv n net) (steps : List (Action × Env)) : Inv n (net.run n steps).1 :=
  run_of_step (Inv n) (fun _ a env h => step_inv h a env) hinv steps

theorem run_inv_rotateKey_delivered :
    Inv 2 init ∧ Inv 2 (init.run 2
      [(.command 0 (.rotateKey ⟨0⟩), { Worker.failingEnv with startDkg := .ok (.dkgPart1 ⟨.null⟩) }),
        (.command 1 (.rotateKey ⟨1⟩), { Worker.failingEnv with startDkg := .ok (.dkgPart1 ⟨.null⟩) }),
        (.deliver 0, Worker.failingEnv)]).1 :=
  ⟨inv_init, run_inv inv_init _⟩

/-! ## The DKG exchange quiesces -/

/-- The engine advances a DKG round as the spec describes it: it answers a `DkgPart1` with a
`DkgPart2`, or with an error, never with another `DkgPart1`. -/
def Advances (env : Env) : Prop := ∀ m msg, env.dkgPart1 m = .ok msg → ∃ m', msg = .dkgPart2 m'

/-- How many DKG deliveries a DKG payload can still cause, itself included, when each
publication reaches `d` peers: a `null`, or any payload that does not decode, is dropped; a
`DkgPart2` publishes at most a `null`; a `DkgPart1` at most a `DkgPart2`. -/
def dkgWeight (d : Nat) (p : Payload) : Nat :=
  match DkgMessage.fromJson p with
  | some (.dkgPart1 _) => 1 + d * (1 + d)
  | some (.dkgPart2 _) => 1 + d
  | none => 1

def eventLoad (d : Nat) : Event → Nat
  | .dkgMessage p => dkgWeight d p
  | _ => 0

/-- The DKG deliveries that the deliveries `l` can still cause. -/
def load (d : Nat) : List (Nat × Event) → Nat
  | [] => 0
  | x :: l => eventLoad d x.2 + load d l

/-- What the payloads `ps` weigh together. -/
def weight (d : Nat) : List Payload → Nat
  | [] => 0
  | p :: ps => dkgWeight d p + weight d ps

@[simp] theorem weight_nil (d : Nat) : weight d [] = 0 := rfl

@[simp] theorem weight_cons (d : Nat) (p : Payload) (ps : List Payload) :
    weight d (p :: ps) = dkgWeight d p + weight d ps := rfl

theorem dkgWeight_le (d : Nat) (p : Payload) : dkgWeight d p ≤ 1 + d * (1 + d) := by
  unfold dkgWeight
  split <;> simp only [Nat.mul_add, Nat.mul_one] <;> omega

@[simp] theorem load_append (d : Nat) (l l' : List (Nat × Event)) :
    load d (l ++ l') = load d l + load d l' := by
  induction l with
  | nil => simp [load]
  | cons x l ih => simp [load, ih, Nat.add_assoc]

theorem load_map_pair (d : Nat) (l : List Nat) (g : Event) :
    load d (l.map (·, g)) = l.length * eventLoad d g := by
  induction l with
  | nil => simp [load]
  | cons j l ih => simp [load, ih, Nat.succ_mul, Nat.add_comm]

theorem load_eraseIdx (d : Nat) :
    ∀ {l : List (Nat × Event)} {k : Nat} {x : Nat × Event}, l[k]? = some x →
      load d (l.eraseIdx k) + eventLoad d x.2 = load d l
  | _ :: _, 0, _, h => by
    simp only [List.getElem?_cons_zero, Option.some.injEq] at h
    subst h
    simp [load, Nat.add_comm]
  | _ :: _, _ + 1, _, h => by
    have := load_eraseIdx d (List.getElem?_cons_succ ▸ h)
    simp only [load, List.eraseIdx_cons_succ] at this ⊢
    omega

theorem take_load (d : Nat) (h : net.take n a = some (net₀, i, ev)) :
    load d net₀.inFlight + eventLoad d ev = load d net.inFlight := by
  cases a with
  | deliver k =>
    obtain ⟨x, hx, he⟩ := Option.map_eq_some'.mp h
    cases he
    exact load_eraseIdx d hx
  | command j c =>
    simp only [take] at h
    split at h <;> cases h
    rfl

/-- A publication on the DKG topic weighs its weight at each peer; one on the Sign topic,
nothing. -/
theorem load_fanOut (d : Nat) (es : List Effect) :
    load d (fanOut n i es) = (peers n i).length * weight d (published dkgTopic es) := by
  induction es with
  | nil => rfl
  | cons e es ih =>
    have hcons : fanOut n i (e :: es) =
        (e.gossip?.toList.flatMap fun g => (peers n i).map (·, g)) ++ fanOut n i es := by
      cases hg : e.gossip? <;> simp [fanOut, List.filterMap_cons, hg]
    rw [hcons, load_append, ih]
    cases e with
    | publish t p =>
      simp only [Effect.gossip?, published, List.filterMap_cons, Effect.published?]
      by_cases hd : t = dkgTopic
      · subst hd
        simp [load_map_pair, eventLoad, Nat.mul_add]
      · by_cases hs : t = signTopic
        · subst hs
          simp [load_map_pair, eventLoad, hd]
        · simp [hd, hs, load]
    | _ => simp [Effect.gossip?, published, Effect.published?, load]

/-- **The potential step.** What a worker publishes on the DKG topic weighs, at `d` peers, less
than the DKG payload it handles; only a `RotateKey` command adds weight, at most
`d * (1 + d * (1 + d))`. -/
theorem published_weight_le (d : Nat) (henv : Advances env) (w : Worker) (ev : Event) :
    d * weight d (published dkgTopic (w.step env ev).2) + (if ev.isDkg then 1 else 0) ≤
      eventLoad d ev + if ev.isRotateKey then d * (1 + d * (1 + d)) else 0 := by
  rw [Worker.published_dkgTopic_step]
  cases ev with
  | dkgMessage p =>
    simp only [eventLoad, Event.isDkg, Event.isRotateKey, if_true]
    split
    next m hm =>
      split
      next msg hmsg =>
        obtain ⟨m', rfl⟩ := henv m msg hmsg
        simp [dkgWeight, hm]
        omega
      next => simp [dkgWeight, hm]
    next m hm =>
      have hp : dkgWeight d p = 1 + d := by simp [dkgWeight, hm]
      have hnull : dkgWeight d .null = 1 := rfl
      split <;> simp [hp, hnull, Nat.add_comm]
    next hm => simp [dkgWeight, hm]
  | signMessage p => simp [eventLoad, Event.isDkg]
  | command c =>
    cases c with
    | rotateKey s =>
      simp only [Event.isDkg, Event.isRotateKey, eventLoad, if_true]
      split
      · simpa using Nat.mul_le_mul_left d (dkgWeight_le d _)
      · simp
    | _ => simp [eventLoad, Event.isDkg, Event.isRotateKey]

theorem step_load (hinv : Inv n net) (henv : Advances env) (a : Action) :
    load (n - 1) (net.step n a env).1.inFlight +
        (net.step n a env).2.toList.countP (·.event.isDkg) ≤
      load (n - 1) net.inFlight + (net.step n a env).2.toList.countP (·.event.isRotateKey) *
        ((n - 1) * (1 + (n - 1) * (1 + (n - 1)))) := by
  cases ht : net.take n a with
  | none => simp [step_of_take_none ht]
  | some t =>
    obtain ⟨net₀, j, ev⟩ := t
    rw [step_of_take_some ht]
    have hload := take_load (n - 1) ht
    have hpub := published_weight_le (n - 1) henv (net₀.workers j) ev
    simp only [handle_inFlight, load_append, load_fanOut, length_peers (take_inv hinv ht).2,
      handle_handled, Option.toList_some, List.countP_singleton] at hload hpub ⊢
    split <;> split <;> simp_all <;> omega

/-- The potential over a run: the DKG deliveries made, plus what is still in flight, are at
most the start's load and what the `RotateKey` commands added. -/
theorem run_load (hinv : Inv n net) (steps : List (Action × Env))
    (henv : ∀ x ∈ steps, Advances x.2) :
    load (n - 1) (net.run n steps).1.inFlight + (net.run n steps).2.countP (·.event.isDkg) ≤
      load (n - 1) net.inFlight + (net.run n steps).2.countP (·.event.isRotateKey) *
        ((n - 1) * (1 + (n - 1) * (1 + (n - 1)))) := by
  induction steps generalizing net with
  | nil => simp
  | cons x rest ih =>
    have hstep := step_load hinv (henv x (List.mem_cons_self _ _)) x.1
    have hrest := ih (step_inv hinv x.1 x.2) fun y hy => henv y (List.mem_cons_of_mem _ hy)
    rw [run_cons]
    dsimp only
    rw [List.countP_append, List.countP_append, Nat.add_mul]
    omega

/-- **The DKG exchange quiesces.** Under an engine that advances every round, each `RotateKey`
command among `n` workers causes at most `d * (1 + d * (1 + d))` DKG deliveries, `d = n - 1`:
a `DkgPart1`, the `DkgPart2`s answering it, and the `null`s those may publish. -/
theorem dkg_deliveries_le (n : Nat) (steps : List (Action × Env))
    (henv : ∀ x ∈ steps, Advances x.2) :
    (init.run n steps).2.countP (·.event.isDkg) ≤
      (init.run n steps).2.countP (·.event.isRotateKey) *
        ((n - 1) * (1 + (n - 1) * (1 + (n - 1)))) := by
  have := run_load (inv_init : Inv n init) steps henv
  have hempty : load (n - 1) init.inFlight = 0 := rfl
  omega

/-- An engine that runs a DKG round as the spec describes and never closes it: `start_dkg` and
`dkg_part1` answer, and `dkg_part2` leaves the round open. -/
def openRoundEnv : Env :=
  { Worker.failingEnv with
    startDkg := .ok (.dkgPart1 ⟨.null⟩)
    dkgPart1 := fun _ => .ok (.dkgPart2 ⟨.null⟩)
    dkgPart2 := fun _ => .ok none }

/-- A `RotateKey` at worker `0` of two, then its `DkgPart1` to worker `1`, the `DkgPart2` that
answers it back to worker `0`, and the `null` of the open round to worker `1`. -/
def openRoundRun : List (Action × Env) :=
  [(.command 0 (.rotateKey ⟨0⟩), openRoundEnv), (.deliver 0, openRoundEnv),
    (.deliver 0, openRoundEnv), (.deliver 0, openRoundEnv)]

theorem dkg_deliveries_le_open_round :
    (∀ x ∈ openRoundRun, Advances x.2) ∧
    (init.run 2 openRoundRun).2.countP (·.event.isDkg) ≤
      (init.run 2 openRoundRun).2.countP (·.event.isRotateKey) *
        ((2 - 1) * (1 + (2 - 1) * (1 + (2 - 1)))) :=
  have h : ∀ x ∈ openRoundRun, Advances x.2 := by
    simp only [openRoundRun, List.mem_cons, List.mem_singleton, List.not_mem_nil, or_false]
    rintro x (rfl | rfl | rfl | rfl) <;> exact fun _ _ hm => ⟨⟨.null⟩, (Except.ok.inj hm).symm⟩
  ⟨h, dkg_deliveries_le 2 openRoundRun h⟩

/-- The bound is reached: among two workers, that run makes three DKG deliveries. -/
example : (init.run 2 openRoundRun).2.countP (·.event.isDkg) = 3 := by decide

/-! ## Replies across the network -/

theorem commands_map_input (log : List Handled) :
    commands (log.map Handled.input) = log.flatMap fun h => h.event.command?.toList := by
  induction log with
  | nil => rfl
  | cons h log ih => rw [List.map_cons, commands_cons, ih, List.flatMap_cons]; rfl

theorem mem_commands_handledBy {log : List Handled} {c : Command} :
    c ∈ commands (handledBy i log) ↔ ∃ h ∈ log, h.worker = i ∧ h.event.command? = some c := by
  simp [commands, handledBy, Handled.input, and_assoc]

theorem mem_replies_effectsOf {log : List Handled} {x : Sender × Reply} :
    x ∈ replies (effectsOf i log) ↔ ∃ h ∈ log, h.worker = i ∧ x ∈ sends h.effects := by
  simp only [replies, effectsOf, List.mem_flatMap, List.mem_map, List.mem_filter, decide_eq_true_eq]
  constructor
  · rintro ⟨_, ⟨h, ⟨hh, hw⟩, rfl⟩, hx⟩
    exact ⟨h, hh, hw, hx⟩
  · rintro ⟨h, hh, hw, hx⟩
    exact ⟨_, ⟨h, ⟨hh, hw⟩, rfl⟩, hx⟩

theorem mem_replies_log {log : List Handled} {x : Sender × Reply} :
    x ∈ replies (log.map (·.effects)) ↔ ∃ h ∈ log, x ∈ sends h.effects := by
  simp [replies]

theorem commands_handledBy_sublist (log : List Handled) (i : Nat) :
    List.Sublist (commands (handledBy i log)) (commands (log.map Handled.input)) :=
  ((List.filter_sublist log).map Handled.input).filterMap _

/-- Commands that different workers handled carry different channels, when the commands of the
whole log do. -/
theorem sender_ne_of_worker_ne {log : List Handled}
    (hfresh : ((commands (log.map Handled.input)).map Command.sender).Nodup) {h h' : Handled}
    (hh : h ∈ log) (hh' : h' ∈ log) (hw : h.worker ≠ h'.worker) {c c' : Command}
    (hc : h.event.command? = some c) (hc' : h'.event.command? = some c') : c.sender ≠ c'.sender := by
  rw [commands_map_input, List.map_flatMap] at hfresh
  have hsymm : Symmetric (List.Disjoint on fun h : Handled => h.event.command?.toList.map
      Command.sender) := fun _ _ hab _ hb ha => hab ha hb
  have hdisj := (List.nodup_flatMap.mp hfresh).2.forall hsymm hh hh' (fun he => hw (he ▸ rfl))
  intro he
  exact hdisj (List.mem_map_of_mem _ (Option.mem_toList.mpr hc))
    (he ▸ List.mem_map_of_mem _ (Option.mem_toList.mpr hc'))

/-- The parts of a log's entries, put together, have no duplicates when each worker's parts
have none and different workers' parts share nothing. -/
theorem nodup_flatMap_of_workers {β : Type} (g : Handled → List β) :
    ∀ log : List Handled, (∀ i, ((log.filter (·.worker = i)).flatMap g).Nodup) →
      (∀ h ∈ log, ∀ h' ∈ log, h.worker ≠ h'.worker → ∀ x ∈ g h, x ∉ g h') →
      (log.flatMap g).Nodup
  | [], _, _ => List.nodup_nil
  | h :: log, hper, hcross => by
    have hh := hper h.worker
    simp only [List.filter_cons, decide_True, if_true, List.flatMap_cons,
      List.nodup_append] at hh
    rw [List.flatMap_cons, List.nodup_append]
    refine ⟨hh.1, nodup_flatMap_of_workers g log (fun i => ?_)
      (fun a ha b hb => hcross a (.tail _ ha) b (.tail _ hb)), fun x hx hx' => ?_⟩
    · by_cases hi : h.worker = i
      · exact hi ▸ hh.2.1
      · simpa [List.filter_cons, hi] using hper i
    · obtain ⟨h', hh', hx''⟩ := List.mem_flatMap.mp hx'
      by_cases hw : h.worker = h'.worker
      · exact hh.2.2 hx (List.mem_flatMap.mpr ⟨h', List.mem_filter.mpr ⟨hh', by simp [hw]⟩, hx''⟩)
      · exact hcross h (.head _) h' (.tail _ hh') hw x hx hx''

/-- Every worker of a network run keeps `Replies` over the commands it handled and the replies
it sent. -/
theorem replies_of_worker (n : Nat) (steps : List (Action × Env))
    (hfresh : ((commands ((init.run n steps).2.map Handled.input)).map Command.sender).Nodup)
    (i : Nat) :
    Worker.Replies ((init.run n steps).1.workers i) (commands (handledBy i (init.run n steps).2))
      (replies (effectsOf i (init.run n steps).2)) := by
  have hp : Worker.new.run (handledBy i (init.run n steps).2) =
      ((init.run n steps).1.workers i, effectsOf i (init.run n steps).2) :=
    (run_project n init steps i).symm
  have h := Worker.replies_new.run (handledBy i (init.run n steps).2)
    (((commands_handledBy_sublist _ i).map Command.sender).nodup hfresh)
  rw [hp] at h
  simpa using h

/-- **Replies across the network.** Over every interleaving among `n` workers whose commands
carry distinct channels, no channel gets two replies, each reply has its channel's type, and
every call but `rotate_key` is answered or pending in its worker's `Sign` slot. -/
theorem run_net_replies (n : Nat) (steps : List (Action × Env))
    (hfresh : ((commands ((init.run n steps).2.map Handled.input)).map Command.sender).Nodup) :
    ((replies ((init.run n steps).2.map (·.effects))).map Prod.fst).Nodup ∧
    (∀ x ∈ replies ((init.run n steps).2.map (·.effects)),
      ∃ c ∈ commands ((init.run n steps).2.map Handled.input),
        c.sender = x.1 ∧ c.replyFits x.2 = true) ∧
    ∀ h ∈ (init.run n steps).2, ∀ c, h.event = .command c → (∀ s, c ≠ .rotateKey s) →
      Service.receive ((init.run n steps).1.workers h.worker)
        (replies ((init.run n steps).2.map (·.effects))) c.sender ≠ some (.error failedToReceive) := by
  have hw := replies_of_worker n steps hfresh
  have hfits : ∀ {i x}, x ∈ replies (effectsOf i (init.run n steps).2) →
      ∃ c ∈ commands (handledBy i (init.run n steps).2), c.sender = x.1 ∧ c.replyFits x.2 = true :=
    fun hx => (hw _).fits _ hx
  refine ⟨?_, fun x hx => ?_, fun h hh c hc hrot => Service.receive_ne_failed ?_⟩
  · rw [replies, List.flatMap_map, List.map_flatMap]
    refine nodup_flatMap_of_workers _ _ (fun i => ?_) fun h hh h' hh' hne x hx hx' => ?_
    · simpa [replies, effectsOf, List.flatMap_map, List.map_flatMap] using (hw i).once
    · obtain ⟨⟨_, r⟩, hr, rfl⟩ := List.mem_map.mp hx
      obtain ⟨⟨_, r'⟩, hr', he⟩ := List.mem_map.mp hx'
      obtain ⟨c, hc, hcs, -⟩ := hfits (mem_replies_effectsOf.mpr ⟨h, hh, rfl, hr⟩)
      obtain ⟨c', hc', hcs', -⟩ := hfits (mem_replies_effectsOf.mpr ⟨h', hh', rfl, hr'⟩)
      obtain ⟨g, hg, hgw, hgc⟩ := mem_commands_handledBy.mp hc
      obtain ⟨g', hg', hgw', hgc'⟩ := mem_commands_handledBy.mp hc'
      exact sender_ne_of_worker_ne hfresh hg hg' (hgw ▸ hgw' ▸ hne) hgc hgc'
        (hcs.trans (he ▸ hcs'.symm))
  · obtain ⟨h, hh, hx⟩ := mem_replies_log.mp hx
    obtain ⟨c, hc, hcf⟩ := hfits (mem_replies_effectsOf.mpr ⟨h, hh, rfl, hx⟩)
    exact ⟨c, (commands_handledBy_sublist _ _).subset hc, hcf⟩
  · have hcmd : c ∈ commands (handledBy h.worker (init.run n steps).2) :=
      mem_commands_handledBy.mpr ⟨h, hh, rfl, by simp [hc, Event.command?]⟩
    rcases (hw h.worker).answered c hcmd hrot with hs | hs
    · obtain ⟨x, hx, he⟩ := List.mem_map.mp hs
      obtain ⟨g, hg, -, hxg⟩ := mem_replies_effectsOf.mp hx
      exact .inl (List.mem_map.mpr ⟨x, mem_replies_log.mpr ⟨g, hg, hxg⟩, he⟩)
    · exact .inr (.inr (by simp [hs, QueryResultSender.channel]))

/-- Two workers under an engine that fails every call: a `Sign` call to worker `0`, which parks
its channel, a `Setup` call to worker `1`, and a second `Sign` call to worker `0`, turned away
as busy. -/
def twoWorkerCalls : List (Action × Env) :=
  [(.command 0 (.sign [] ⟨0⟩), Worker.failingEnv),
    (.command 1 (.setup (2, 3) ⟨1⟩), Worker.failingEnv),
    (.command 0 (.sign [] ⟨2⟩), Worker.failingEnv)]

theorem run_net_replies_two_workers :
    ((commands ((init.run 2 twoWorkerCalls).2.map Handled.input)).map Command.sender).Nodup ∧
    ((replies ((init.run 2 twoWorkerCalls).2.map (·.effects))).map Prod.fst).Nodup ∧
    (∀ x ∈ replies ((init.run 2 twoWorkerCalls).2.map (·.effects)),
      ∃ c ∈ commands ((init.run 2 twoWorkerCalls).2.map Handled.input),
        c.sender = x.1 ∧ c.replyFits x.2 = true) ∧
    ∀ h ∈ (init.run 2 twoWorkerCalls).2, ∀ c, h.event = .command c → (∀ s, c ≠ .rotateKey s) →
      Service.receive ((init.run 2 twoWorkerCalls).1.workers h.worker)
        (replies ((init.run 2 twoWorkerCalls).2.map (·.effects))) c.sender ≠
          some (.error failedToReceive) :=
  ⟨by decide, run_net_replies 2 twoWorkerCalls (by decide)⟩

end Net

end Redot.Validator
