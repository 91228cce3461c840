import Redot.Validator.Network

/-!
The Sign exchange among `n` workers, in the network of `Network.lean`, where gossip delivers
every publication once to every other worker. `handle_sign_message` re-publishes every
`SignPart1` it receives, whatever the engine answers, so a `SignPart1` in flight is never used up:
a single `Sign` command starts an exchange with no bound on its publications
(`sign_exchange_unbounded`), for every number `n ≥ 2` of workers and every sequence of engine
answers.

The exchange is not unbounded in an arbitrary way: every Sign payload in flight decodes as a
`SignMessage` at its recipient (`run_inFlight_decodes`), and each delivery adds at most two Sign
publications, so after `k` deliveries there are at most `1 + 2 * k` (`run_publications_le`).
-/

namespace Redot.Validator.Net

/-- The payloads the steps of a log published on `SIGN_TOPIC`, in order. -/
def signPublished (log : List Handled) : List Payload :=
  log.flatMap fun h => published signTopic h.effects

/-- A `Sign` command to worker `0`, then deliveries, each naming the delivery in flight and the
engine's answers. -/
def signRun (env : Env) (message : Bytes) (s : Sender) (steps : List (Nat × Env)) :
    List (Action × Env) :=
  (.command 0 (.sign message s), env) :: steps.map fun x => (.deliver x.1, x.2)

/-- A delivery of the Sign payload `p` is in flight to one of the `n` workers. -/
def Live (n : Nat) (p : Payload) (net : Net) : Prop :=
  ∃ j < n, (j, Event.signMessage p) ∈ net.inFlight

variable {n : Nat} {net net₀ : Net} {a : Action} {env : Env} {i : Nat} {ev : Event}

@[simp] theorem signPublished_append (l l' : List Handled) :
    signPublished (l ++ l') = signPublished l ++ signPublished l' :=
  List.flatMap_append _ _ _

theorem signPublished_run_cons (a : Action) (env : Env) (rest : List (Action × Env)) :
    (signPublished (net.run n ((a, env) :: rest)).2).length =
      (signPublished (net.step n a env).2.toList).length +
        (signPublished ((net.step n a env).1.run n rest).2).length := by
  rw [run_cons, signPublished_append, List.length_append]

/-- What a step publishes on `SIGN_TOPIC` is what the worker handed its event publishes. -/
theorem signPublished_step (ht : net.take n a = some (net₀, i, ev)) :
    signPublished (net.step n a env).2.toList =
      published signTopic ((net₀.workers i).step env ev).2 := by
  simp [step_of_take_some ht, signPublished]

/-! ## A `SignPart1` is never used up -/

theorem exists_mem_peers (hn : 2 ≤ n) (i : Nat) : ∃ j < n, j ∈ peers n i := by
  by_cases hi : i = 0
  · exact ⟨1, by omega, mem_peers.mpr ⟨by omega, by omega⟩⟩
  · exact ⟨0, by omega, mem_peers.mpr ⟨by omega, Ne.symm hi⟩⟩

/-- A worker handed a `SignPart1` re-publishes it, whatever the engine answers. -/
theorem signPart1_republished (w : Worker) (env : Env) (m : SignPart1Message) :
    (SignMessage.signPart1 m).toJson ∈
      published signTopic (w.step env (.signMessage (SignMessage.signPart1 m).toJson)).2 := by
  simp [Worker.published_signTopic_step]

/-- Among `n ≥ 2` workers, a step whose worker publishes `p` on `SIGN_TOPIC` leaves `p` in flight
and counts at least one publication. -/
theorem step_live (hn : 2 ≤ n) (ht : net.take n a = some (net₀, i, ev)) {p : Payload}
    (hp : p ∈ published signTopic ((net₀.workers i).step env ev).2) :
    Live n p (net.step n a env).1 ∧ 1 ≤ (signPublished (net.step n a env).2.toList).length := by
  obtain ⟨j, hj, hpeer⟩ := exists_mem_peers hn i
  have hg : (Effect.publish signTopic p).gossip? = some (.signMessage p) := by
    simp [Effect.gossip?, Worker.dkgTopic_ne_signTopic.symm]
  rw [signPublished_step ht, step_of_take_some ht]
  exact ⟨⟨j, hj, mem_handle_of_publish hpeer hg (Worker.mem_published.mp hp)⟩, List.length_pos_of_mem hp⟩

/-- **The rebroadcast step.** A `SignPart1` in flight can be delivered so that, whatever the
engine answers, it is published once more and is still in flight. -/
theorem deliver_live (hn : 2 ≤ n) {m : SignPart1Message}
    (h : Live n (SignMessage.signPart1 m).toJson net) :
    ∃ k, ∀ env, Live n (SignMessage.signPart1 m).toJson (net.step n (.deliver k) env).1 ∧
      1 ≤ (signPublished (net.step n (.deliver k) env).2.toList).length := by
  obtain ⟨j, -, hmem⟩ := h
  obtain ⟨k, net₀, ht, hw⟩ := exists_take_of_mem n hmem
  exact ⟨k, fun env => step_live hn ht (hw ▸ signPart1_republished (net.workers j) env m)⟩

/-- **The run lemma.** From a network with a `SignPart1` in flight, for every sequence of engine
answers there is a schedule of as many deliveries, each publishing at least once. -/
theorem run_live (hn : 2 ≤ n) {m : SignPart1Message} :
    ∀ (envs : List Env) (net : Net), Live n (SignMessage.signPart1 m).toJson net →
      ∃ ks : List Nat, ks.length = envs.length ∧ envs.length ≤
        (signPublished (net.run n ((ks.zip envs).map fun x => (.deliver x.1, x.2))).2).length
  | [], _, _ => ⟨[], rfl, Nat.zero_le _⟩
  | env :: envs, net, h => by
    obtain ⟨k, hk⟩ := deliver_live hn h
    obtain ⟨ks, hlen, hpub⟩ := run_live hn envs _ (hk env).1
    refine ⟨k :: ks, by simp [hlen], ?_⟩
    simp only [List.zip_cons_cons, List.map_cons, signPublished_run_cons, List.length_cons]
    have := (hk env).2
    omega

theorem take_sign (h0 : 0 < n) (message : Bytes) (s : Sender) :
    init.take n (.command 0 (.sign message s)) = some (init, 0, .command (.sign message s)) :=
  if_pos h0

/-- A `Sign` command whose `start_sign` yields a `SignPart1` puts it in flight. -/
theorem start_live (hn : 2 ≤ n) {env : Env} {message : Bytes} {m : SignPart1Message}
    (hstart : env.startSign message = .ok (.signPart1 m)) (s : Sender) :
    Live n (SignMessage.signPart1 m).toJson (init.step n (.command 0 (.sign message s)) env).1 ∧
      1 ≤ (signPublished (init.step n (.command 0 (.sign message s)) env).2.toList).length :=
  step_live hn (take_sign (by omega) message s)
    (by simp [Worker.published_signTopic_step, init, Worker.new, hstart])

/-- The bound the spec's reading would give: among any `n ≥ 2` workers, a single `Sign` command
causes at most some `B`, depending on `n` alone, Sign-topic publications, in every run and under
every engine. -/
def SignExchangeBounded : Prop :=
  ∀ n, 2 ≤ n → ∃ B, ∀ env message s (steps : List (Nat × Env)),
    (signPublished (init.run n (signRun env message s steps)).2).length ≤ B

/-- **The exchange does not quiesce.** Among `n ≥ 2` workers, once `start_sign` yields a
`SignPart1`, every sequence of engine answers has a schedule of as many deliveries that publishes
more often than it delivers. -/
theorem sign_exchange_unbounded (hn : 2 ≤ n) {env : Env} {message : Bytes}
    {m : SignPart1Message} (hstart : env.startSign message = .ok (.signPart1 m)) (s : Sender)
    (envs : List Env) :
    ∃ ks : List Nat, ks.length = envs.length ∧
      envs.length < (signPublished (init.run n (signRun env message s (ks.zip envs))).2).length := by
  obtain ⟨hlive, hone⟩ := start_live hn hstart s
  obtain ⟨ks, hlen, hpub⟩ := run_live hn envs _ hlive
  refine ⟨ks, hlen, ?_⟩
  simp only [signRun, signPublished_run_cons]
  omega

/-- An engine whose `start_sign` yields a `SignPart1` and which fails every other call. -/
def signingEnv : Env := { Worker.failingEnv with startSign := fun _ => .ok (.signPart1 ⟨.null⟩) }

theorem sign_exchange_unbounded_two_workers :
    2 ≤ 2 ∧ signingEnv.startSign [] = .ok (.signPart1 ⟨.null⟩) ∧
    ∃ ks : List Nat, ks.length = [Worker.failingEnv].length ∧ [Worker.failingEnv].length <
      (signPublished (init.run 2 (signRun signingEnv [] ⟨0⟩ (ks.zip [Worker.failingEnv]))).2).length :=
  ⟨le_rfl, rfl, sign_exchange_unbounded le_rfl rfl ⟨0⟩ [Worker.failingEnv]⟩

/-- Two workers already refute any bound: they hand one `SignPart1` back and forth forever. -/
theorem sign_exchange_not_bounded : ¬ SignExchangeBounded := by
  intro h
  obtain ⟨B, hB⟩ := h 2 le_rfl
  obtain ⟨hlive, hone⟩ := start_live (le_refl 2) (rfl : signingEnv.startSign [] = _) ⟨0⟩
  obtain ⟨ks, -, hpub⟩ := run_live le_rfl (List.replicate (B + 1) Worker.failingEnv) _ hlive
  have := hB signingEnv [] ⟨0⟩ (ks.zip (List.replicate (B + 1) Worker.failingEnv))
  simp only [signRun, signPublished_run_cons] at this
  simp only [List.length_replicate] at hpub
  omega

/-! ## Every run of the exchange -/

/-- **Every Sign payload in flight decodes.** In every run of `n` workers from a `Sign` command,
under every schedule and every engine answer, no `handle_sign_message` takes its
deserialization-error branch. -/
theorem run_inFlight_decodes (n : Nat) (env : Env) (message : Bytes) (s : Sender)
    (steps : List (Nat × Env)) :
    ∀ j p, (j, Event.signMessage p) ∈ (init.run n (signRun env message s steps)).1.inFlight →
      ∃ m, SignMessage.fromJson p = some m := fun j _ hx =>
  (run_of_step (Inv n) (fun _ a env h => step_inv h a env) inv_init _).readable (j, _) hx

theorem run_inFlight_decodes_two_workers :
    (0, Event.signMessage (SignMessage.signPart1 ⟨.null⟩).toJson) ∈
        (init.run 2 (signRun signingEnv [] ⟨0⟩ [(0, Worker.failingEnv)])).1.inFlight ∧
      ∃ m, SignMessage.fromJson (SignMessage.signPart1 ⟨.null⟩).toJson = some m :=
  ⟨by decide, run_inFlight_decodes 2 signingEnv [] ⟨0⟩ [(0, Worker.failingEnv)] 0 _ (by decide)⟩

/-- A step publishes at most two payloads on `SIGN_TOPIC`: an engine answer and a rebroadcast. -/
theorem published_signTopic_length_le (w : Worker) (env : Env) (ev : Event) :
    (published signTopic (w.step env ev).2).length ≤ 2 := by
  rw [Worker.published_signTopic_step]
  cases ev with
  | signMessage p =>
    dsimp only
    split
    · split <;> simp
    · simp
  | command c =>
    cases c with
    | sign message s =>
      dsimp only
      split
      · simp
      · split <;> simp
    | _ => simp
  | dkgMessage p => simp

theorem step_signPublished_le (n : Nat) (net : Net) (a : Action) (env : Env) :
    (signPublished (net.step n a env).2.toList).length ≤ 2 := by
  cases ht : net.take n a with
  | none => simp [step_of_take_none ht, signPublished]
  | some t => rw [signPublished_step ht]; exact published_signTopic_length_le _ _ _

theorem run_signPublished_le (n : Nat) (net : Net) (steps : List (Action × Env)) :
    (signPublished (net.run n steps).2).length ≤ 2 * steps.length := by
  induction steps generalizing net with
  | nil => simp [signPublished]
  | cons x rest ih =>
    obtain ⟨a, env⟩ := x
    have hstep := step_signPublished_le n net a env
    have := ih (net.step n a env).1
    rw [signPublished_run_cons, List.length_cons]
    omega

/-- A `Sign` command to a fresh worker publishes at most `start_sign`'s message. -/
theorem start_signPublished_le (n : Nat) (env : Env) (message : Bytes) (s : Sender) :
    (signPublished (init.step n (.command 0 (.sign message s)) env).2.toList).length ≤ 1 := by
  by_cases h0 : 0 < n
  · rw [signPublished_step (take_sign h0 message s)]
    simp only [Worker.published_signTopic_step, init, Worker.new, Option.isSome_none,
      Bool.false_eq_true, if_false]
    split <;> simp
  · have ht : init.take n (.command 0 (.sign message s)) = none := if_neg h0
    rw [step_of_take_none ht]
    exact Nat.zero_le _

/-- **Sign-topic traffic is at most linear.** The `Sign` command publishes at most once and each
delivery at most twice, so `k` deliveries make at most `1 + 2k` Sign publications. -/
theorem run_publications_le (n : Nat) (env : Env) (message : Bytes) (s : Sender)
    (steps : List (Nat × Env)) :
    (signPublished (init.run n (signRun env message s steps)).2).length ≤
      1 + 2 * steps.length := by
  have hstart := start_signPublished_le n env message s
  have hrest := run_signPublished_le n (init.step n (.command 0 (.sign message s)) env).1
    (steps.map fun x => (.deliver x.1, x.2))
  rw [List.length_map] at hrest
  simp only [signRun, signPublished_run_cons]
  omega

end Redot.Validator.Net
