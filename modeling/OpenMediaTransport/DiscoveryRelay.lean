import Mathlib.Data.Char
import Mathlib.Data.List.Lex
import Mathlib.Data.List.Sort
import Mathlib.Logic.Function.Basic
import OpenMediaTransport.AddressXml
import OpenMediaTransport.DiscoveryServer
import OpenMediaTransport.Runs

/-!
The discovery server with its clients, thread by thread. A registry call happens
under the lock in one step; its sends follow one at a time, and between any two of
them any other thread or client may act. A connection delivers whole frames in
order: what is in flight is the list of their texts. Streams are numbered as they
are accepted. The accept loop serves one connection at a time and starts its peer
loop last, so a peer's own messages come after its snapshot.

An address is that of one connection at a time, as TCP has it: an old connection's
descriptor stays open until `disconnect_peer` has taken the address out.

A hash map's order is whatever it is: the calls that broadcast are given the peers
in any order. Reading a name can panic, which ends a peer loop without
`disconnect_peer`, and a client's worker for good.
-/

namespace OpenMediaTransport

/-- The worker's list in `client.rs`: the key's entry is dropped, and put back if it stays. -/
def updateSources (sources : List OmtAddress) (address : OmtAddress) : List OmtAddress :=
  let others := sources.filter (·.key != address.key)
  if address.removed then others
  else (others ++ [address]).insertionSort (·.instanceName ≤ ·.instanceName)

def handleSource (documentParse : List Char → Except String Markup.XmlNode)
    (sources : List OmtAddress) (xml : List Char) : Except Text.Panic (List OmtAddress) :=
  match OmtAddress.fromXml documentParse xml with
  | .error panic => .error panic
  | .ok (.error _) => .ok sources
  | .ok (.ok address) => .ok (updateSources sources address)

inductive Thread where
  | accept
  | peer (stream : Nat)
  deriving DecidableEq, Repr

/-- A `DiscoveryClient` at the other end of a stream: what is in flight to it, and its list. -/
structure Client where
  inbox : List (List Char)
  sources : List OmtAddress

/-- `call` numbers the registry call whose sends a thread is working off, in the order in which
the calls held the lock; the code keeps no such number. -/
structure Relay where
  shared : Shared Nat
  streams : Nat
  loops : List (SocketAddr × Nat)
  pending : Thread → List (Todo Nat)
  calls : Nat
  call : Thread → Nat
  clients : Nat → Client
  events : List DiscoveryServerEvent

def Todo.isSend : Todo Nat → Bool
  | .send _ _ => true
  | _ => false

def Todo.Tells (stream : Nat) (key : SourceKey) : Todo Nat → Prop
  | .send target address => target = stream ∧ address.key = key
  | _ => False

inductive Action where
  | accept (peer : SocketAddr)
  | message (peer : SocketAddr) (stream : Nat) (xml : List Char) (order : List (SocketAddr × Nat))
  | disconnect (peer : SocketAddr) (stream : Nat) (order : List (SocketAddr × Nat))
  | work (thread : Thread)
  | receive (stream : Nat)

namespace Relay

def init : Relay :=
  { shared := .init, streams := 0, loops := [], pending := fun _ => []
    calls := 0, call := fun _ => 0, clients := fun _ => ⟨[], []⟩, events := [] }

def locked (relay : Relay) (thread : Thread) (next : Shared Nat × List (Todo Nat)) : Relay :=
  { relay with
    shared := next.1
    pending := Function.update relay.pending thread next.2
    calls := relay.calls + 1
    call := Function.update relay.call thread (relay.calls + 1) }

@[simp] theorem locked_own (relay : Relay) (thread : Thread)
    (next : Shared Nat × List (Todo Nat)) : (relay.locked thread next).pending thread = next.2 :=
  Function.update_self ..

theorem locked_rest (relay : Relay) (thread other : Thread)
    (next : Shared Nat × List (Todo Nat)) (apart : other ≠ thread) :
    (relay.locked thread next).pending other = relay.pending other := Function.update_of_ne apart ..

theorem locked_call (relay : Relay) (thread : Thread) (next : Shared Nat × List (Todo Nat)) :
    (relay.locked thread next).call thread = relay.calls + 1 := Function.update_self ..

theorem locked_callRest (relay : Relay) (thread other : Thread)
    (next : Shared Nat × List (Todo Nat)) (apart : other ≠ thread) :
    (relay.locked thread next).call other = relay.call other := Function.update_of_ne apart ..

def perform (relay : Relay) : Todo Nat → Relay
  | .send target address =>
      let client := relay.clients target
      { relay with
        clients := Function.update relay.clients target
          { client with inbox := client.inbox ++ [address.toXml] } }
  | .emit event => { relay with events := relay.events ++ [event] }
  | .spawn peer target => { relay with loops := relay.loops ++ [(peer, target)] }

theorem perform_shared (relay : Relay) (todo : Todo Nat) :
    (relay.perform todo).shared = relay.shared := by cases todo <;> rfl

theorem perform_streams (relay : Relay) (todo : Todo Nat) :
    (relay.perform todo).streams = relay.streams := by cases todo <;> rfl

@[simp] theorem perform_pending (relay : Relay) (todo : Todo Nat) :
    (relay.perform todo).pending = relay.pending := by cases todo <;> rfl

@[simp] theorem perform_call (relay : Relay) (todo : Todo Nat) :
    (relay.perform todo).call = relay.call := by cases todo <;> rfl

@[simp] theorem perform_calls (relay : Relay) (todo : Todo Nat) :
    (relay.perform todo).calls = relay.calls := by cases todo <;> rfl

def drop (relay : Relay) (thread : Thread) (rest : List (Todo Nat)) : Relay :=
  { relay with pending := Function.update relay.pending thread rest }

@[simp] theorem drop_own (relay : Relay) (thread : Thread) (rest : List (Todo Nat)) :
    (relay.drop thread rest).pending thread = rest := Function.update_self ..

theorem drop_rest (relay : Relay) (thread other : Thread) (rest : List (Todo Nat))
    (apart : other ≠ thread) : (relay.drop thread rest).pending other = relay.pending other :=
  Function.update_of_ne apart ..

/-- A peer loop runs, and is back from its last call. -/
def Listening (relay : Relay) (peer : SocketAddr) (stream : Nat) : Prop :=
  (peer, stream) ∈ relay.loops ∧ relay.pending (.peer stream) = []

instance decideListening (relay : Relay) (peer : SocketAddr) (stream : Nat) :
    Decidable (relay.Listening peer stream) := inferInstanceAs (Decidable (_ ∧ _))

section Act
variable (documentParse : List Char → Except String Markup.XmlNode)

def act (relay : Relay) : Action → Option Relay
  | .accept peer =>
      if relay.pending .accept = [] ∧ peer ∉ relay.shared.connected then
        some { relay.locked .accept (relay.shared.acceptPeer peer relay.streams) with
          streams := relay.streams + 1 }
      else none
  | .message peer stream xml order =>
      if relay.Listening peer stream ∧ order.Perm relay.shared.peers then
        match OmtAddress.fromXml documentParse xml with
        | .error _ => some { relay with loops := relay.loops.erase (peer, stream) }
        | .ok (.error _) => some relay
        | .ok (.ok address) =>
            some (relay.locked (.peer stream)
              ({ relay.shared with peers := order }.handleAddress peer address))
      else none
  | .disconnect peer stream order =>
      if relay.Listening peer stream ∧ order.Perm relay.shared.peers then
        some { relay.locked (.peer stream)
            ({ relay.shared with peers := order }.disconnectPeer peer) with
          loops := relay.loops.erase (peer, stream) }
      else none
  | .work thread =>
      match relay.pending thread with
      | [] => none
      | todo :: rest =>
          some ((relay.drop thread rest).perform todo)
  | .receive stream =>
      match (relay.clients stream).inbox with
      | [] => none
      | xml :: rest =>
          match handleSource documentParse (relay.clients stream).sources xml with
          | .error _ => none
          | .ok sources =>
              some { relay with clients := Function.update relay.clients stream ⟨rest, sources⟩ }

def replay : List Action → Option Relay := Runs.replay (act documentParse) init
end Act

/-- The stream is one of those the server broadcasts to. -/
def live (relay : Relay) (stream : Nat) : Prop := stream ∈ relay.shared.peers.map Prod.snd

def threads (relay : Relay) : List Thread :=
  .accept :: (List.range relay.streams).map .peer

/-- Some thread has yet to send something about the key to the stream. -/
def SendPending (relay : Relay) (stream : Nat) (key : SourceKey) : Prop :=
  ∃ thread address, .send stream address ∈ relay.pending thread ∧ address.key = key

def Quiet (relay : Relay) : Prop :=
  (∀ thread ∈ relay.threads, ∀ todo ∈ relay.pending thread, todo.isSend = false) ∧
    ∀ stream, relay.live stream → (relay.clients stream).inbox = []

def Agrees (relay : Relay) : Prop :=
  ∀ stream, relay.live stream → ∀ key,
    key ∈ (relay.clients stream).sources.map OmtAddress.key ↔ key ∈ relay.shared.keys

end Relay

theorem replay_getD (documentParse : List Char → Except String Markup.XmlNode)
    (history : List Action)
    (reached : (Relay.replay documentParse history).isSome = true) :
    Relay.replay documentParse history =
      some ((Relay.replay documentParse history).getD .init) :=
  (Option.getD_of_ne_none (Option.isSome_iff_ne_none.mp reached) _).symm

/-! What a step has found. -/

section Found
variable (documentParse : List Char → Except String Markup.XmlNode) (relay next : Relay)

theorem act_message (peer : SocketAddr) (stream : Nat) (xml : List Char)
    (order : List (SocketAddr × Nat))
    (acted : relay.act documentParse (.message peer stream xml order) = some next) :
    (relay.Listening peer stream ∧ order.Perm relay.shared.peers) ∧
      (next = { relay with loops := relay.loops.erase (peer, stream) } ∨ next = relay ∨
        ∃ address, OmtAddress.fromXml documentParse xml = .ok (.ok address) ∧
          next = relay.locked (.peer stream)
            ({ relay.shared with peers := order }.handleAddress peer address)) := by
  obtain ⟨admitted, same⟩ := Option.ite_none_right_eq_some.mp acted
  refine ⟨admitted, ?_⟩
  cases read : OmtAddress.fromXml documentParse xml with
  | error panic =>
      rw [read] at same
      cases same
      exact .inl rfl
  | ok outcome =>
      rw [read] at same
      cases outcome with
      | error _ =>
          cases same
          exact .inr (.inl rfl)
      | ok address =>
          cases same
          exact .inr (.inr ⟨address, rfl, rfl⟩)

theorem act_work (thread : Thread) (acted : relay.act documentParse (.work thread) = some next) :
    ∃ todo rest, relay.pending thread = todo :: rest ∧
      next = (relay.drop thread rest).perform todo := by
  cases front : relay.pending thread with
  | nil =>
      rw [Relay.act, front] at acted
      cases acted
  | cons todo rest =>
      rw [Relay.act, front] at acted
      cases acted
      exact ⟨todo, rest, rfl, rfl⟩

theorem act_receive (stream : Nat)
    (acted : relay.act documentParse (.receive stream) = some next) :
    ∃ xml rest sources, (relay.clients stream).inbox = xml :: rest ∧
      handleSource documentParse (relay.clients stream).sources xml = .ok sources ∧
      next = { relay with clients := Function.update relay.clients stream ⟨rest, sources⟩ } := by
  cases front : (relay.clients stream).inbox with
  | nil =>
      rw [Relay.act, front] at acted
      cases acted
  | cons xml rest =>
      rw [Relay.act, front] at acted
      dsimp only at acted
      cases taken : handleSource documentParse (relay.clients stream).sources xml with
      | error panic =>
          rw [taken] at acted
          cases acted
      | ok sources =>
          rw [taken] at acted
          cases acted
          exact ⟨xml, rest, sources, rfl, taken, rfl⟩
end Found

end OpenMediaTransport
