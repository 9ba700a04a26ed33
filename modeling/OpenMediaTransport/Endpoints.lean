import OpenMediaTransport.Ranking
import OpenMediaTransport.SourceAddress

/-!
Where a receiver connects to: what `connect_with_addresses` of `receive.rs` makes of a URL,
`resolve_endpoints` and `connect_first`. The resolver of the operating system and the attempt
to connect are functions of what they are asked; addresses in numbers are read without
either.
-/

namespace OpenMediaTransport

open Text

inductive IpAddr where
  | v4 (octets : Vector UInt8 4)
  | v6 (segments : Vector UInt16 8)
  deriving DecidableEq

namespace IpAddr

def hexDigit (char : Char) : Option Nat :=
  if char.isDigit then some (char.toNat - 48)
  else if 'a' ≤ char ∧ char ≤ 'f' then some (char.toNat - 87)
  else if 'A' ≤ char ∧ char ≤ 'F' then some (char.toNat - 55)
  else none

def decimalDigit (char : Char) : Option Nat :=
  if char.isDigit then some (char.toNat - 48) else none

/-- `read_number`: all the digits there are, but not more than `most`. -/
def readNumber (digit : Char → Option Nat) (radix most : Nat) (text : List Char) :
    Option (Nat × List Char) :=
  let digits := text.takeWhile fun char => (digit char).isSome
  if digits.isEmpty || decide (most < digits.length) then none
  else some (digits.foldl (fun value char => value * radix + (digit char).getD 0) 0,
    text.drop digits.length)

def readChar (char : Char) : List Char → Option (List Char)
  | [] => none
  | first :: rest => if first = char then some rest else none

/-- One number of an IPv4 address; only zero itself begins with a zero. -/
def readOctet (text : List Char) : Option (UInt8 × List Char) :=
  match readNumber decimalDigit 10 3 text with
  | none => none
  | some (value, rest) =>
      if 255 < value ∨ (text.head? = some '0' ∧ rest.length + 1 < text.length) then none
      else some (.ofNat value, rest)

def readIpv4 (text : List Char) : Option (Vector UInt8 4 × List Char) := do
  let (first, rest) ← readOctet text
  let (second, rest) ← readOctet (← readChar '.' rest)
  let (third, rest) ← readOctet (← readChar '.' rest)
  let (fourth, rest) ← readOctet (← readChar '.' rest)
  some (#v[first, second, third, fourth], rest)

def dottedSegments (octets : Vector UInt8 4) : List UInt16 :=
  [.ofNat (octets[0].toNat * 256 + octets[1].toNat), .ofNat (octets[2].toNat * 256 + octets[3].toNat)]

/-- `read_groups` into `slots` places: the segments, whether they end in an IPv4 address,
and what is left. A group that cannot be read is left where it is. -/
def readGroups : Nat → Bool → List Char → List UInt16 × Bool × List Char
  | 0, _, text => ([], false, text)
  | slots + 1, first, text =>
      match if first then some text else readChar ':' text with
      | none => ([], false, text)
      | some inner =>
          match if slots = 0 then none else readIpv4 inner with
          | some (octets, rest) => (dottedSegments octets, true, rest)
          | none =>
              match readNumber hexDigit 16 4 inner with
              | none => ([], false, text)
              | some (value, rest) =>
                  let others := readGroups slots false rest
                  (.ofNat value :: others.1, others.2.1, others.2.2)

def readIpv6 (text : List Char) : Option (List UInt16 × List Char) :=
  match readGroups 8 true text with
  | (head, dotted, rest) =>
      if head.length = 8 then some (head, rest)
      else if dotted then none
      else
        match rest with
        | ':' :: ':' :: rest =>
            let tail := readGroups (8 - (head.length + 1)) true rest
            some (head ++ List.replicate (8 - head.length - tail.1.length) 0 ++ tail.1, tail.2.2)
        | _ => none

def parse (text : List Char) : Option IpAddr :=
  match readIpv4 text with
  | some (octets, rest) => if rest.isEmpty then some (.v4 octets) else none
  | none =>
      match readIpv6 text with
      | none => none
      | some (segments, rest) =>
          if rest.isEmpty then some (.v6 (.ofFn fun index => segments.getD index 0)) else none

def isLoopback : IpAddr → Bool
  | .v4 octets => octets[0] == 127
  | .v6 segments => segments.toList == [0, 0, 0, 0, 0, 0, 0, 1]

example : parse "192.168.0.17".toList = some (.v4 #v[192, 168, 0, 17]) := by decide

example : (parse "::ffff:127.0.0.1".toList).isSome = true ∧ parse "127.0.0.01".toList = none := by
  decide

end IpAddr

/-- A `SocketAddr`; the last two are zero but in answers of the resolver. -/
structure TcpEndpoint where
  ip : IpAddr
  port : UInt16
  flowinfo : UInt32 := 0
  scopeId : UInt32 := 0
  deriving DecidableEq

/-- Ordinary IPv4, then 172.*, then IPv6, link-local addresses and loopback. -/
def endpointPreference (addr : TcpEndpoint) : Nat :=
  match addr.ip with
  | .v4 octets =>
      if addr.ip.isLoopback then 5
      else if octets[0] = 169 ∧ octets[1] = 254 then 4
      else if octets[0] = 172 then 1
      else 0
  | .v6 segments =>
      if addr.ip.isLoopback then 5
      else if segments[0] &&& 0xffc0 = 0xfe80 then 4
      else 3

section Resolve
variable (toSocketAddrs : List Char → UInt16 → Option (List TcpEndpoint))

/-- The hosts to try, trimmed: those from discovery before those of the URL. -/
def hostsOf (parsed : OmtAddress) (extraAddresses : List (List Char)) : List (List Char) :=
  firstOccurrences eqIgnoreAsciiCase
    (((extraAddresses ++ parsed.addresses).map trim).filter fun host => !host.isEmpty)

/-- What a host stands for; a name that is not found stands for nothing. -/
def endpointsOf (port : UInt16) (host : List Char) : List TcpEndpoint :=
  match IpAddr.parse host with
  | some ip => [{ ip, port }]
  | none => (toSocketAddrs host port).getD []

def joinComma : List (List Char) → List Char
  | [] => []
  | [host] => host
  | host :: next :: rest => host ++ ',' :: ' ' :: joinComma (next :: rest)

def resolveEndpoints (parsed : OmtAddress) (extraAddresses : List (List Char)) :
    Except OmtError (List TcpEndpoint) :=
  let hosts := hostsOf parsed extraAddresses
  if hosts.isEmpty then .error (.invalidArgument "receiver URL has no host addresses")
  else
    let endpoints := distinct (hosts.flatMap (endpointsOf toSocketAddrs parsed.port))
    if endpoints.isEmpty then
      .error (.invalidArgument
        ("could not resolve receiver host(s): " ++ String.ofList (joinComma hosts)))
    else .ok (endpoints.insertionSort (Ahead endpointPreference))

end Resolve

section Connect
variable {σ : Type} (connect : TcpEndpoint → Except OmtError σ)

/-- The loop of `connect_first`, with the last error so far. -/
def connectLoop (lastErr : Option OmtError) :
    List TcpEndpoint → Except OmtError (σ × TcpEndpoint)
  | [] => .error (lastErr.getD (.network "connect failed: no endpoints available"))
  | addr :: rest =>
      match connect addr with
      | .ok stream => .ok (stream, addr)
      | .error error => connectLoop (some error) rest

def connectFirst (endpoints : List TcpEndpoint) : Except OmtError (σ × TcpEndpoint) :=
  connectLoop connect none endpoints

/-- How a connection of a receiver is made, once its URL is read. -/
def connectAny (toSocketAddrs : List Char → UInt16 → Option (List TcpEndpoint))
    (parsed : OmtAddress) (extraAddresses : List (List Char)) :
    Except OmtError (σ × TcpEndpoint) :=
  match resolveEndpoints toSocketAddrs parsed extraAddresses with
  | .error error => .error error
  | .ok endpoints => connectFirst connect endpoints

/-- The URL of a receiver, which has to name a port. -/
def readUrl (address : List Char) : Except Panic (Except OmtError OmtAddress) :=
  if address.isEmpty then return .error (.invalidArgument "receiver address is empty")
  else do
    match ← OmtAddress.fromUrl address with
    | .error error => return .error error
    | .ok parsed =>
        if parsed.port = 0 then
          return .error (.invalidArgument "receiver URL must include a port")
        else return .ok parsed

/-- `connect_with_addresses`, as far as to its first connection. -/
def connectWithAddresses (toSocketAddrs : List Char → UInt16 → Option (List TcpEndpoint))
    (address : List Char) (extraAddresses : List (List Char)) :
    Except Panic (Except OmtError (σ × TcpEndpoint)) := do
  match ← readUrl address with
  | .error error => return .error error
  | .ok parsed => return connectAny connect toSocketAddrs parsed extraAddresses

def Reachable (addr : TcpEndpoint) : Prop := ∃ stream, connect addr = .ok stream

theorem connectLoop_ok (lastErr : Option OmtError) (endpoints : List TcpEndpoint) (stream : σ)
    (addr : TcpEndpoint) (made : connectLoop connect lastErr endpoints = .ok (stream, addr)) :
    connect addr = .ok stream ∧ ∃ front back, endpoints = front ++ addr :: back ∧
      ∀ other ∈ front, ¬ Reachable connect other := by
  induction endpoints generalizing lastErr with
  | nil => cases made
  | cons first rest ih =>
      rw [connectLoop] at made
      cases answer : connect first with
      | ok given =>
          rw [answer] at made
          cases made
          exact ⟨answer, [], rest, rfl, fun _ none => absurd none List.not_mem_nil⟩
      | error error =>
          rw [answer] at made
          obtain ⟨reached, front, back, rfl, unreachable⟩ := ih (some error) made
          refine ⟨reached, first :: front, back, rfl, List.forall_mem_cons.mpr ⟨?_, unreachable⟩⟩
          rintro ⟨stream, given⟩
          rw [answer] at given
          cases given

theorem connectLoop_error (lastErr : Option OmtError) (endpoints : List TcpEndpoint)
    (error : OmtError) (failed : connectLoop connect lastErr endpoints = .error error)
    (some : endpoints ≠ []) :
    (∀ addr ∈ endpoints, ¬ Reachable connect addr) ∧
      ∃ front last, endpoints = front ++ [last] ∧ connect last = .error error := by
  induction endpoints generalizing lastErr with
  | nil => exact absurd rfl some
  | cons first rest ih =>
      rw [connectLoop] at failed
      cases answer : connect first with
      | ok given =>
          rw [answer] at failed
          cases failed
      | error reason =>
          rw [answer] at failed
          have unreachable : ¬ Reachable connect first := by
            rintro ⟨stream, given⟩
            rw [answer] at given
            cases given
          cases rest with
          | nil =>
              cases failed
              exact ⟨List.forall_mem_singleton.mpr unreachable, [], first, rfl, answer⟩
          | cons next others =>
              obtain ⟨all, front, last, split, why⟩ :=
                ih (.some reason) failed (List.cons_ne_nil next others)
              exact ⟨List.forall_mem_cons.mpr ⟨unreachable, all⟩, first :: front, last,
                congrArg (first :: ·) split, why⟩

end Connect

section Endpoints
variable {σ : Type} (toSocketAddrs : List Char → UInt16 → Option (List TcpEndpoint))
variable (connect : TcpEndpoint → Except OmtError σ)
variable (parsed : OmtAddress) (extraAddresses : List (List Char))

def candidates : List TcpEndpoint :=
  (hostsOf parsed extraAddresses).flatMap (endpointsOf toSocketAddrs parsed.port)

inductive Resolved : Except OmtError (List TcpEndpoint) → Prop
  | hostless (none : hostsOf parsed extraAddresses = []) :
      Resolved (.error (.invalidArgument "receiver URL has no host addresses"))
  | unresolved (some : hostsOf parsed extraAddresses ≠ [])
      (none : candidates toSocketAddrs parsed extraAddresses = []) :
      Resolved (.error (.invalidArgument ("could not resolve receiver host(s): " ++
        String.ofList (joinComma (hostsOf parsed extraAddresses)))))
  | endpoints (some : candidates toSocketAddrs parsed extraAddresses ≠ []) :
      Resolved (.ok (ranked endpointPreference (candidates toSocketAddrs parsed extraAddresses)))

theorem resolveEndpoints_resolved :
    Resolved toSocketAddrs parsed extraAddresses
      (resolveEndpoints toSocketAddrs parsed extraAddresses) := by
  unfold resolveEndpoints
  dsimp only
  split
  · rename_i none
    exact .hostless (List.isEmpty_iff.mp none)
  rename_i hosts
  have given : hostsOf parsed extraAddresses ≠ [] := fun none => hosts (List.isEmpty_iff.mpr none)
  split
  · rename_i none
    refine .unresolved given (List.eq_nil_iff_forall_not_mem.mpr fun addr member => ?_)
    have inside := (mem_distinct _ addr).mpr member
    rw [candidates, List.isEmpty_iff.mp none] at inside
    exact List.not_mem_nil inside
  · rename_i some
    refine .endpoints fun none => some ?_
    rw [candidates] at none
    rw [none]
    rfl

/-- Every host that is given is tried, in one of its spellings. -/
theorem hosts_tried (host : List Char) (given : host ∈ extraAddresses ++ parsed.addresses)
    (some : trim host ≠ []) :
    ∃ kept ∈ hostsOf parsed extraAddresses,
      kept = trim host ∨ eqIgnoreAsciiCase kept (trim host) = true := by
  refine firstOccurrences_covers eqIgnoreAsciiCase _ (trim host) (List.mem_filter.mpr ⟨?_, ?_⟩)
  · exact List.mem_map_of_mem given
  · rw [Bool.not_eq_true', List.isEmpty_eq_false_iff]
    exact some

/-- The receiver connects if any address of any of its hosts can be reached, and then to the
one preferred, which among equals is the one that came first. Otherwise the error says
which of the three things went wrong, and if it is from the network, it is that of an
address that is preferred to none. -/
structure Preferred (answer : Except OmtError (σ × TcpEndpoint)) : Prop where
  tried : ∀ host ∈ extraAddresses ++ parsed.addresses, trim host ≠ [] →
    ∃ kept ∈ hostsOf parsed extraAddresses,
      kept = trim host ∨ eqIgnoreAsciiCase kept (trim host) = true
  reached : (∃ made, answer = .ok made) ↔
    ∃ addr ∈ candidates toSocketAddrs parsed extraAddresses, Reachable connect addr
  best : ∀ stream addr, answer = .ok (stream, addr) →
    connect addr = .ok stream ∧ addr ∈ candidates toSocketAddrs parsed extraAddresses ∧
    ∀ other ∈ candidates toSocketAddrs parsed extraAddresses, Reachable connect other →
      other ≠ addr → endpointPreference addr ≤ endpointPreference other ∧
      ∀ before rest, candidates toSocketAddrs parsed extraAddresses = before ++ addr :: rest →
        addr ∉ before → other ∈ before → endpointPreference addr < endpointPreference other
  failed : ∀ error, answer = .error error →
    (hostsOf parsed extraAddresses = [] ∧
      error = .invalidArgument "receiver URL has no host addresses") ∨
    (hostsOf parsed extraAddresses ≠ [] ∧
      candidates toSocketAddrs parsed extraAddresses = [] ∧
      error = .invalidArgument ("could not resolve receiver host(s): " ++
        String.ofList (joinComma (hostsOf parsed extraAddresses)))) ∨
    ∃ last ∈ candidates toSocketAddrs parsed extraAddresses, connect last = .error error ∧
      ∀ other ∈ candidates toSocketAddrs parsed extraAddresses,
        endpointPreference other ≤ endpointPreference last

theorem connectAny_preferred :
    Preferred toSocketAddrs connect parsed extraAddresses
      (connectAny connect toSocketAddrs parsed extraAddresses) := by
  have tried := hosts_tried parsed extraAddresses
  have resolved := resolveEndpoints_resolved toSocketAddrs parsed extraAddresses
  unfold connectAny
  generalize resolveEndpoints toSocketAddrs parsed extraAddresses = answer at resolved
  cases resolved with
  | hostless none =>
      have empty : candidates toSocketAddrs parsed extraAddresses = [] := by
        rw [candidates, none]
        rfl
      refine ⟨tried, ⟨nofun, ?_⟩, nofun, fun error failed => .inl ⟨none, (Except.error.inj failed).symm⟩⟩
      rintro ⟨addr, member, -⟩
      rw [empty] at member
      cases member
  | unresolved some empty =>
      refine ⟨tried, ⟨nofun, ?_⟩, nofun, fun error failed =>
        .inr (.inl ⟨some, empty, (Except.error.inj failed).symm⟩)⟩
      rintro ⟨addr, member, -⟩
      rw [empty] at member
      cases member
  | endpoints some =>
      have listed := mem_ranked endpointPreference (candidates toSocketAddrs parsed extraAddresses)
      have given : ranked endpointPreference (candidates toSocketAddrs parsed extraAddresses) ≠ [] := by
        obtain ⟨addr, member⟩ := List.exists_mem_of_ne_nil _ some
        exact List.ne_nil_of_mem ((listed addr).mpr member)
      refine ⟨tried, ⟨?_, ?_⟩, ?_, ?_⟩
      · rintro ⟨⟨stream, addr⟩, made⟩
        obtain ⟨reached, front, back, split, -⟩ := connectLoop_ok connect none _ stream addr made
        refine ⟨addr, (listed addr).mp ?_, stream, reached⟩
        rw [split]
        exact List.mem_append_right front List.mem_cons_self
      · rintro ⟨addr, member, reached⟩
        cases made : connectFirst connect
            (ranked endpointPreference (candidates toSocketAddrs parsed extraAddresses)) with
        | ok pair => exact ⟨pair, made⟩
        | error error =>
            obtain ⟨none, -⟩ := connectLoop_error connect none _ error made given
            exact absurd reached (none addr ((listed addr).mpr member))
      · intro stream addr made
        obtain ⟨reached, front, back, split, unreachable⟩ :=
          connectLoop_ok connect none _ stream addr made
        refine ⟨reached, (listed addr).mp ?_, fun other member found apart => ?_⟩
        · rw [split]
          exact List.mem_append_right front List.mem_cons_self
        · exact ranked_behind endpointPreference _ front back addr other split member apart
            fun early => unreachable other early found
      · intro error failed
        obtain ⟨-, front, last, split, why⟩ := connectLoop_error connect none _ error failed given
        refine .inr (.inr ⟨last, (listed last).mp ?_, why, fun other member => ?_⟩)
        · rw [split]
          exact List.mem_append_right front List.mem_cons_self
        · exact ranked_last endpointPreference _ front last other split member

/-- What there is to refuse before any host is looked at. -/
inductive Refused (address : List Char) : OmtError → Prop
  | empty (none : address = []) : Refused address (.invalidArgument "receiver address is empty")
  | invalid (some : address ≠ []) (error : OmtError)
      (read : OmtAddress.fromUrl address = .ok (.error error)) : Refused address error
  | portless (some : address ≠ []) (parsed : OmtAddress)
      (read : OmtAddress.fromUrl address = .ok (.ok parsed)) (none : parsed.port = 0) :
      Refused address (.invalidArgument "receiver URL must include a port")

theorem readUrl_answer (address : List Char) (answer : Except OmtError OmtAddress)
    (read : readUrl address = .ok answer) :
    (∃ error, Refused address error ∧ answer = .error error) ∨
      ∃ parsed, OmtAddress.fromUrl address = .ok (.ok parsed) ∧ parsed.port ≠ 0 ∧
        answer = .ok parsed := by
  unfold readUrl at read
  split at read
  · rename_i none
    cases read
    exact .inl ⟨_, .empty (List.isEmpty_iff.mp none), rfl⟩
  rename_i some
  have given : address ≠ [] := fun none => some (List.isEmpty_iff.mpr none)
  cases url : OmtAddress.fromUrl address with
  | error panic =>
      rw [url] at read
      cases read
  | ok parsed =>
      rw [url] at read
      cases parsed with
      | error error =>
          cases read
          exact .inl ⟨error, .invalid given error url, rfl⟩
      | ok parsed =>
          change (if parsed.port = 0 then
              Except.ok (Except.error (OmtError.invalidArgument "receiver URL must include a port"))
            else .ok (Except.ok parsed)) = _ at read
          split at read
          · rename_i none
            cases read
            exact .inl ⟨_, .portless given parsed url none, rfl⟩
          · rename_i port
            cases read
            exact .inr ⟨parsed, rfl, port, rfl⟩

/-- A URL that cannot be used is refused; of one that can, the preferred address is
connected to. -/
theorem connects_to_preferred (address : List Char) (answer : Except OmtError (σ × TcpEndpoint))
    (returned : connectWithAddresses connect toSocketAddrs address extraAddresses = .ok answer) :
    (∃ error, Refused address error ∧ answer = .error error) ∨
      ∃ parsed, OmtAddress.fromUrl address = .ok (.ok parsed) ∧ parsed.port ≠ 0 ∧
        Preferred toSocketAddrs connect parsed extraAddresses answer := by
  unfold connectWithAddresses at returned
  cases read : readUrl address with
  | error panic =>
      rw [read] at returned
      cases returned
  | ok url =>
      rw [read] at returned
      rcases readUrl_answer address url read with ⟨error, refused, rfl⟩ | ⟨parsed, given, port, rfl⟩
      · cases returned
        exact .inl ⟨error, refused, rfl⟩
      · cases returned
        exact .inr ⟨parsed, given, port,
          connectAny_preferred toSocketAddrs connect parsed extraAddresses⟩
end Endpoints

def loopbackHost : List Char := "::1".toList

def cameraUrl : List Char := "omt://10.0.0.1:6400/Cam".toList

def answering (addr : TcpEndpoint) : Except OmtError TcpEndpoint := .ok addr

def cameraEndpoint : TcpEndpoint := { ip := .v4 #v[10, 0, 0, 1], port := 6400 }

theorem connects_to_preferred_camera :
    connectWithAddresses answering (fun _ _ => none) cameraUrl [loopbackHost] =
      .ok (.ok (cameraEndpoint, cameraEndpoint)) ∧
    ∃ parsed, OmtAddress.fromUrl cameraUrl = .ok (.ok parsed) ∧
      Preferred (fun _ _ => none) answering parsed [loopbackHost]
        (.ok (cameraEndpoint, cameraEndpoint)) := by
  have made : connectWithAddresses answering (fun _ _ => none) cameraUrl [loopbackHost] =
      .ok (.ok (cameraEndpoint, cameraEndpoint)) := by decide
  refine ⟨made, ?_⟩
  rcases connects_to_preferred (fun _ _ => none) answering [loopbackHost] cameraUrl _ made with
    ⟨error, -, other⟩ | ⟨parsed, read, -, preferred⟩
  · cases other
  · exact ⟨parsed, read, preferred⟩

end OpenMediaTransport
