import OpenMediaTransport.DiscoveryViews

/-!
Whole runs of the discovery server and its clients. Where sends are made in turn,
a server with nothing left to send has told every connected client of every key.
Where they are not, a client can be left with what an earlier call saw.
-/

namespace OpenMediaTransport

open Markup

variable (documentParse : List Char → Except String XmlNode)

theorem init_sound : Sound documentParse .init where
  unique := List.nodup_nil
  entries _ member := nomatch member
  peers _ member := nomatch member
  loops _ member := nomatch member
  todo _ _ member := nomatch member
  fresh _ _ := ⟨rfl, rfl⟩
  calls _ := Nat.le_refl 0
  told _ live := nomatch live
  views _ live := nomatch live

theorem loops_sound (relay : Relay) (sound : Sound documentParse relay)
    (loops : List (SocketAddr × Nat)) (fewer : ∀ loop ∈ loops, loop ∈ relay.loops) :
    Sound documentParse { relay with loops } :=
  ⟨sound.unique, sound.entries, sound.peers, fun loop member => sound.loops loop (fewer loop member),
    sound.todo, sound.fresh, sound.calls, sound.told, sound.views⟩

theorem listening_thread (relay : Relay) (sound : Sound documentParse relay) (peer : SocketAddr)
    (stream : Nat) (listening : relay.Listening peer stream) : .peer stream ∈ relay.threads :=
  List.mem_cons_of_mem _ (List.mem_map.mpr
    ⟨stream, List.mem_range.mpr (sound.loops _ listening.1), rfl⟩)

theorem act_sound (reads : ReadsXml documentParse) (relay next : Relay)
    (sound : Sound documentParse relay) (action : Action) (inTurn : InTurn relay action)
    (acted : relay.act documentParse action = some next) : Sound documentParse next := by
  cases action with
  | accept peer =>
      obtain ⟨⟨idle, _⟩, same⟩ := Option.ite_none_right_eq_some.mp acted
      cases same
      exact accept_sound documentParse relay sound peer idle
  | message peer stream xml order =>
      obtain ⟨⟨listening, perm⟩, rfl | rfl | ⟨address, read, rfl⟩⟩ :=
        act_message documentParse relay next peer stream xml order acted
      -- A panic ends this peer's loop and nothing else.
      · exact loops_sound documentParse relay sound _ fun loop member => List.mem_of_mem_erase member
      · exact sound
      · have known := listening_thread documentParse relay sound peer stream listening
        obtain ⟨settled, writable⟩ := fromXml_settled documentParse reads xml address read
        exact message_sound documentParse relay sound peer stream order perm known listening.2
          address settled writable
  | disconnect peer stream order =>
      obtain ⟨⟨listening, perm⟩, same⟩ := Option.ite_none_right_eq_some.mp acted
      cases same
      have known := listening_thread documentParse relay sound peer stream listening
      have called := disconnect_sound documentParse relay sound peer stream order perm known listening.2
      exact loops_sound documentParse _ called _ fun loop member => List.mem_of_mem_erase member
  | work thread =>
      obtain ⟨todo, rest, front, rfl⟩ := act_work documentParse relay next thread acted
      exact perform_sound documentParse reads relay sound thread todo rest front inTurn
  | receive stream =>
      obtain ⟨xml, rest, sources, front, taken, rfl⟩ :=
        act_receive documentParse relay next stream acted
      exact receive_sound documentParse relay sound stream xml rest sources front taken

theorem replay_sound (reads : ReadsXml documentParse) (history : List Action) (relay : Relay)
    (ran : Relay.replay documentParse history = some relay)
    (inTurn : RunInTurn documentParse history) : Sound documentParse relay := by
  have invariant : Runs.Invariant (Relay.act documentParse) .init InTurn (Sound documentParse) :=
    ⟨init_sound documentParse, fun before after action sound inTurn acted =>
      act_sound documentParse reads before after sound action inTurn acted⟩
  exact invariant.run _ _ history relay inTurn ran

theorem quiet_sent (relay : Relay) (sound : Sound documentParse relay) (quiet : relay.Quiet)
    (stream : Nat) (key : SourceKey) : ¬ relay.SendPending stream key := by
  rintro ⟨thread, address, member, _⟩
  have known := pending_thread documentParse relay sound thread _ member
  exact Bool.noConfusion (quiet.1 thread known _ member)

/-- Views converge along every run whose sends are made in turn. -/
theorem discovery_views_converge (reads : ReadsXml documentParse) (history : List Action)
    (relay : Relay) (ran : Relay.replay documentParse history = some relay)
    (inTurn : RunInTurn documentParse history) (quiet : relay.Quiet) : relay.Agrees := by
  have sound := replay_sound documentParse reads history relay ran inTurn
  intro stream live key
  obtain ⟨final, settled, agrees⟩ := sound.views stream live
  have taken : (relay.clients stream).settle documentParse = .ok (relay.clients stream).sources := by
    unfold Client.settle
    rw [quiet.2 stream live]
    rfl
  rw [taken] at settled
  cases settled
  exact (agrees key).resolve_left (quiet_sent documentParse relay sound quiet stream key)

/-! Runs can be tested. -/

instance decideTells (stream : Nat) (key : SourceKey) : (todo : Todo Nat) →
    Decidable (todo.Tells stream key)
  | .send _ _ => inferInstanceAs (Decidable (_ ∧ _))
  | .emit _ => .isFalse id
  | .spawn _ _ => .isFalse id

instance decideLive (relay : Relay) (stream : Nat) : Decidable (relay.live stream) :=
  inferInstanceAs (Decidable (stream ∈ relay.shared.peers.map Prod.snd))

instance decideFrontInTurn (relay : Relay) (thread : Thread) : (todo : List (Todo Nat)) →
    Decidable (FrontInTurn relay thread todo)
  | [] => .isTrue trivial
  | .send target address :: _ => inferInstanceAs (Decidable (relay.live target →
      ∀ other ∈ relay.threads, other ≠ thread → ∀ todo ∈ relay.pending other,
        todo.Tells target address.key → relay.call thread < relay.call other))
  | .emit _ :: _ => .isTrue trivial
  | .spawn _ _ :: _ => .isTrue trivial

instance decideInTurn (relay : Relay) : (action : Action) → Decidable (InTurn relay action)
  | .work thread => inferInstanceAs (Decidable (FrontInTurn relay thread (relay.pending thread)))
  | .accept _ => .isTrue trivial
  | .message _ _ _ _ => .isTrue trivial
  | .disconnect _ _ _ => .isTrue trivial
  | .receive _ => .isTrue trivial

instance decideRunInTurn (history : List Action) : Decidable (RunInTurn documentParse history) :=
  inferInstanceAs (Decidable (Runs.Throughout _ _ _ history))

instance decideQuiet (relay : Relay) : Decidable relay.Quiet :=
  inferInstanceAs (Decidable (
    (∀ thread ∈ relay.threads, ∀ todo ∈ relay.pending thread, todo.isSend = false) ∧
      ∀ stream ∈ relay.shared.peers.map Prod.snd, (relay.clients stream).inbox = []))

def cameraRun : List Action :=
  [.receive 1, .receive 0, .work (.peer 0), .work (.peer 0),
    .message studio 0 (camera false).toXml [(studio, 0), (backup, 1)],
    .work .accept, .work .accept, .accept backup, .work .accept, .work .accept, .accept studio]

def cameraRelay : Relay := (Relay.replay Markup.read cameraRun).getD .init

theorem discovery_views_converge_camera :
    (cameraRelay.live 1 ∧ (camera false).key ∈ cameraRelay.shared.keys) ∧ cameraRelay.Agrees := by
  have reached : (Relay.replay Markup.read cameraRun).isSome = true ∧
      RunInTurn Markup.read cameraRun ∧
      (cameraRelay.live 1 ∧ (camera false).key ∈ cameraRelay.shared.keys) ∧
      cameraRelay.Quiet := by decide +kernel
  obtain ⟨ran, inTurn, told, quiet⟩ := reached
  exact ⟨told, discovery_views_converge Markup.read read_readsXml cameraRun cameraRelay
    (replay_getD Markup.read cameraRun ran) inTurn quiet⟩

/-- The camera is taken back while the accept loop has yet to send the snapshot with it. -/
def staleRun : List Action :=
  [.receive 1, .receive 1, .receive 0, .receive 0,
    .work .accept, .work (.peer 0), .work (.peer 0),
    .message studio 0 (camera true).toXml [(studio, 0), (backup, 1)], .accept backup,
    .work (.peer 0), .work (.peer 0), .message studio 0 (camera false).toXml [(studio, 0)],
    .work .accept, .work .accept, .accept studio]

def staleRelay : Relay := (Relay.replay Markup.read staleRun).getD .init

theorem stale_snapshot_stays :
    Relay.replay Markup.read staleRun = some staleRelay ∧ staleRelay.Quiet ∧
      ¬ staleRelay.Agrees := by
  have reached : (Relay.replay Markup.read staleRun).isSome = true ∧
      (staleRelay.live 1 ∧ staleRelay.Quiet) ∧
      (camera false).key ∈ (staleRelay.clients 1).sources.map OmtAddress.key ∧
        (camera false).key ∉ staleRelay.shared.keys := by decide +kernel
  obtain ⟨ran, ⟨live, quiet⟩, held, gone⟩ := reached
  refine ⟨replay_getD Markup.read staleRun ran, quiet, ?_⟩
  intro agrees
  exact gone ((agrees 1 live _).mp held)

end OpenMediaTransport
