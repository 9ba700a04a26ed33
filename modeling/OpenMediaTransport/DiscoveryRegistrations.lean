import Mathlib.Data.List.Infix
import OpenMediaTransport.SettledNames

/-!
The local registrations of `Discovery`. Registering keeps the address that was
advertised; deregistering looks for the given text anywhere in `MACHINE (Name)`. What
the host is called, and whether an advertisement succeeds, is each call's own.
-/

namespace OpenMediaTransport

open Text

/-- What `Discovery` keeps of its registrations. -/
structure Discovery where
  registered : List OmtAddress
  deriving DecidableEq

/-- One call of `register`, with the host name and addresses it finds and the answer of
`mdns::advertise` or of the discovery server's client. -/
structure RegisterCall where
  hostname : List Char
  localIps : List (List Char)
  name : List Char
  port : UInt16
  advertised : Except OmtError Unit

def RegisterCall.address (call : RegisterCall) : Except Panic OmtAddress :=
  OmtAddress.localAddress call.hostname call.localIps call.name call.port

namespace Discovery

def register (discovery : Discovery) (call : RegisterCall) :
    Except Panic (Except OmtError Unit × Discovery) := do
  let address ← call.address
  match call.advertised with
  | .error error => return (.error error, discovery)
  | .ok () => return (.ok (), { registered := discovery.registered ++ [address] })

def registerAll (discovery : Discovery) : List RegisterCall → Except Panic Discovery
  | [] => .ok discovery
  | call :: rest => do
      let (_, next) ← discovery.register call
      next.registerAll rest

/-- `instance_name().contains(name)`. -/
def mentions (name : List Char) (address : OmtAddress) : Bool :=
  decide (name <:+: address.instanceName)

/-- The loop of `deregister`: what is withdrawn, in order, and what remains. -/
def drainMentions (name : List Char) : List OmtAddress → List OmtAddress × List OmtAddress
  | [] => ([], [])
  | address :: rest =>
      let tail := drainMentions name rest
      if mentions name address then (address :: tail.1, tail.2) else (tail.1, address :: tail.2)

def deregister (discovery : Discovery) (name : List Char) : List OmtAddress × Discovery :=
  let split := drainMentions name discovery.registered
  (split.1, { registered := split.2 })

end Discovery

theorem drainMentions_filter (name : List Char) (addresses : List OmtAddress) :
    Discovery.drainMentions name addresses =
      (addresses.filter (Discovery.mentions name),
        addresses.filter fun address => !Discovery.mentions name address) := by
  induction addresses with
  | nil => rfl
  | cons address rest ih =>
      cases named : Discovery.mentions name address <;> simp [Discovery.drainMentions, named, ih]

theorem filter_agree {α : Type} (items : List α) (left right : α → Bool) :
    items.filter left = items.filter right ↔ ∀ item ∈ items, left item = right item := by
  constructor
  · intro same item member
    have both : item ∈ items.filter left ↔ item ∈ items.filter right := by rw [same]
    simp only [List.mem_filter, member, true_and] at both
    exact Bool.eq_iff_iff.mpr both
  · exact List.filter_congr

/-! Which calls registered a name. -/

/-- The same call with this name would register the same full name. -/
def RegisterCall.under (call : RegisterCall) (name : List Char) : Bool :=
  match call.address, { call with name }.address with
  | .ok own, .ok other => own.instanceName == other.instanceName
  | _, _ => false

/-- The same, read off the address that was kept. -/
def OmtAddress.recordedAs (name : List Char) (address : OmtAddress) : Bool :=
  match OmtAddress.limitNameLength { address with name := sanitizeName name } with
  | .ok other => address.instanceName == other.instanceName
  | .error _ => false

theorem RegisterCall.under_recordedAs (call : RegisterCall) (name : List Char) (own : OmtAddress)
    (made : call.address = .ok own) : call.under name = own.recordedAs name := by
  -- Of the address only the name depends on the name given.
  have rest : { call with name }.address =
      OmtAddress.limitNameLength { own with name := sanitizeName name } := by
    rcases limitNameLength_cases _ own made with rfl | ⟨front, back, _, _, _, rfl⟩ <;> rfl
  unfold RegisterCall.under OmtAddress.recordedAs
  rw [made, rest]
  cases OmtAddress.limitNameLength { own with name := sanitizeName name } <;> rfl

def addressesOf (calls : List RegisterCall) : List OmtAddress :=
  calls.filterMap fun call => call.address.toOption

def RegisterCall.succeeded (call : RegisterCall) : Bool := call.advertised.isOk

theorem registerAll_registered (calls : List RegisterCall) (before after : Discovery)
    (ran : before.registerAll calls = .ok after) :
    after.registered = before.registered ++ addressesOf (calls.filter RegisterCall.succeeded) ∧
      ∀ call ∈ calls, ∃ own, call.address = .ok own := by
  induction calls generalizing before with
  | nil =>
      cases ran
      simp [addressesOf]
  | cons call rest ih =>
      rw [Discovery.registerAll, Discovery.register] at ran
      cases made : call.address with
      | error panic =>
          rw [made] at ran
          cases ran
      | ok own =>
          rw [made] at ran
          cases answer : call.advertised with
          | error error =>
              rw [answer] at ran
              have later := ih before ran
              simp_all [addressesOf, RegisterCall.succeeded, Except.isOk, Except.toBool]
          | ok _ =>
              rw [answer] at ran
              have later := ih _ ran
              simp_all [addressesOf, RegisterCall.succeeded, Except.isOk, Except.toBool,
                Except.toOption]

theorem addressesOf_filter (calls : List RegisterCall) (chosen : RegisterCall → Bool)
    (kept : OmtAddress → Bool)
    (same : ∀ call ∈ calls, ∀ own, call.address = .ok own → chosen call = kept own) :
    addressesOf (calls.filter chosen) = (addressesOf calls).filter kept := by
  induction calls with
  | nil => rfl
  | cons call rest ih =>
      have later := ih fun other member => same other (List.mem_cons_of_mem _ member)
      have first := same call List.mem_cons_self
      cases made : call.address with
      | error panic =>
          cases shape : chosen call <;>
            simp_all [addressesOf, Except.toOption]
      | ok own =>
          have agree := first own made
          cases shape : kept own <;> simp_all [addressesOf, Except.toOption]

theorem addressesOf_mem (calls : List RegisterCall) (own : OmtAddress) :
    own ∈ addressesOf (calls.filter RegisterCall.succeeded) ↔
      ∃ call ∈ calls, call.advertised = .ok () ∧ call.address = .ok own := by
  have answered (call : RegisterCall) : call.succeeded = true ↔ call.advertised = .ok () := by
    unfold RegisterCall.succeeded
    cases call.advertised <;> simp [Except.isOk, Except.toBool]
  have found (call : RegisterCall) : call.address.toOption = some own ↔ call.address = .ok own := by
    cases call.address <;> simp [Except.toOption]
  simp [addressesOf, answered, found, and_assoc]

/-- What was registered under the name is withdrawn, and all others stay. -/
def DeregistersExactly (calls : List RegisterCall) (discovery : Discovery) (name : List Char) : Prop :=
  (discovery.deregister name).1 =
      addressesOf ((calls.filter RegisterCall.succeeded).filter (·.under name)) ∧
    (discovery.deregister name).2.registered =
      addressesOf ((calls.filter RegisterCall.succeeded).filter fun call => !call.under name)

/-- Deregistering is exact if and only if the text occurs in the full names registered
under it, and in no other one. -/
theorem deregister_exact_iff (calls : List RegisterCall) (discovery : Discovery)
    (ran : Discovery.registerAll ⟨[]⟩ calls = .ok discovery) (name : List Char) :
    DeregistersExactly calls discovery name ↔
      ∀ call ∈ calls, call.advertised = .ok () → ∀ own, call.address = .ok own →
        (name <:+: own.instanceName ↔ call.under name = true) := by
  obtain ⟨registered, made⟩ := registerAll_registered calls ⟨[]⟩ discovery ran
  rw [List.nil_append] at registered
  have named : ∀ call ∈ calls.filter RegisterCall.succeeded, ∀ own, call.address = .ok own →
      call.under name = own.recordedAs name :=
    fun call _ own found => call.under_recordedAs name own found
  have others : ∀ call ∈ calls.filter RegisterCall.succeeded, ∀ own, call.address = .ok own →
      (!call.under name) = !own.recordedAs name :=
    fun call member own found => by rw [named call member own found]
  have agreed : DeregistersExactly calls discovery name ↔
      ∀ own ∈ addressesOf (calls.filter RegisterCall.succeeded),
        Discovery.mentions name own = own.recordedAs name := by
    unfold DeregistersExactly Discovery.deregister
    rw [drainMentions_filter, registered, addressesOf_filter _ _ _ named,
      addressesOf_filter _ _ _ others]
    dsimp only
    rw [filter_agree, filter_agree]
    simp
  have occurs (own : OmtAddress) :
      Discovery.mentions name own = true ↔ name <:+: own.instanceName := decide_eq_true_iff
  rw [agreed]
  constructor
  · intro same call member answer own found
    rw [call.under_recordedAs name own found, ← occurs,
      same own ((addressesOf_mem calls own).mpr ⟨call, member, answer, found⟩)]
  · intro exact own member
    obtain ⟨call, inside, answer, found⟩ := (addressesOf_mem calls own).mp member
    rw [Bool.eq_iff_iff, occurs, ← call.under_recordedAs name own found]
    exact exact call inside answer own found

def cameraCall (name : List Char) (port : UInt16) : RegisterCall :=
  { hostname := "HOST".toList, localIps := [], name, port, advertised := .ok () }

theorem deregister_exact_iff_apart :
    DeregistersExactly [cameraCall "Cam A".toList 6400, cameraCall "Cam B".toList 6401]
        ⟨[⟨"Cam A".toList, "HOST".toList, 6400, [], false⟩,
          ⟨"Cam B".toList, "HOST".toList, 6401, [], false⟩]⟩ "Cam A".toList := by
  refine (deregister_exact_iff _ _ (by decide +kernel) _).mpr fun call member _ own found => ?_
  have known : (cameraCall "Cam A".toList 6400).address =
        .ok ⟨"Cam A".toList, "HOST".toList, 6400, [], false⟩ ∧
      (cameraCall "Cam B".toList 6401).address =
        .ok ⟨"Cam B".toList, "HOST".toList, 6401, [], false⟩ := by decide +kernel
  simp only [List.mem_cons, List.not_mem_nil, or_false] at member
  rcases member with rfl | rfl
  · rw [known.1] at found
    cases found
    decide +kernel
  · rw [known.2] at found
    cases found
    decide +kernel

/-- `Cam 1` is a part of `HOST (Cam 10)`. -/
theorem wider_name_withdrawn :
    Discovery.registerAll ⟨[]⟩ [cameraCall "Cam 1".toList 6400, cameraCall "Cam 10".toList 6401] =
        .ok ⟨[⟨"Cam 1".toList, "HOST".toList, 6400, [], false⟩,
          ⟨"Cam 10".toList, "HOST".toList, 6401, [], false⟩]⟩ ∧
      ¬ DeregistersExactly [cameraCall "Cam 1".toList 6400, cameraCall "Cam 10".toList 6401]
        ⟨[⟨"Cam 1".toList, "HOST".toList, 6400, [], false⟩,
          ⟨"Cam 10".toList, "HOST".toList, 6401, [], false⟩]⟩ "Cam 1".toList := by
  unfold DeregistersExactly
  decide +kernel

end OpenMediaTransport
