import OpenMediaTransport.DiscoveryRelay

/-!
`refresh_for` of `Discovery`. What the browse found comes before what the discovery server's
client has, and the client's sources go into the first entry of their name. The browse's
answer and the client's list are arguments; a failed browse is passed on unread.
-/

namespace OpenMediaTransport

open Text

structure DnsSdResult where
  fullname : List Char
  port : UInt16
  addresses : List (List Char)

def DnsSdResult.address (result : DnsSdResult) : Except Panic (Option OmtAddress) :=
  OmtAddress.fromDnsSd result.fullname result.port result.addresses

structure KnownSources where
  sources : List OmtAddress
  serverClient : Option (List OmtAddress)
  deriving DecidableEq

namespace KnownSources

def accept : List DnsSdResult → Except Panic (List OmtAddress)
  | [] => .ok []
  | result :: rest => do
      let address ← result.address
      let others ← accept rest
      return address.toList ++ others

def addAddress (addresses : List (List Char)) (ip : List Char) : List (List Char) :=
  if addresses.contains ip then addresses else addresses ++ [ip]

/-- The first entry of the source's name takes its addresses; without one the source goes last. -/
def mergeSource : List OmtAddress → OmtAddress → List OmtAddress
  | [], source => [source]
  | entry :: rest, source =>
      if entry.instanceName = source.instanceName then
        { entry with addresses := source.addresses.foldl addAddress entry.addresses } :: rest
      else entry :: mergeSource rest source

def refreshFor {Failure : Type} (known : KnownSources)
    (found : Except Failure (List DnsSdResult)) :
    Except Panic (Except Failure Unit × KnownSources) :=
  match found with
  | .error failure => .ok (.error failure, known)
  | .ok results => do
      let accepted ← accept results
      let merged := (known.serverClient.getD []).foldl mergeSource accepted
      return (.ok (), { known with
        sources := merged.insertionSort (·.instanceName ≤ ·.instanceName) })

end KnownSources

/-! Endpoints. -/

structure Endpoint where
  name : List Char
  port : UInt16
  ip : List Char

def OmtAddress.Offers (address : OmtAddress) (endpoint : Endpoint) : Prop :=
  address.instanceName = endpoint.name ∧ address.port = endpoint.port ∧
    endpoint.ip ∈ address.addresses

def Offered (entries : List OmtAddress) (endpoint : Endpoint) : Prop :=
  ∃ entry ∈ entries, entry.Offers endpoint

instance (entries : List OmtAddress) (endpoint : Endpoint) :
    Decidable (Offered entries endpoint) :=
  inferInstanceAs (Decidable (∃ entry ∈ entries, entry.instanceName = endpoint.name ∧
    entry.port = endpoint.port ∧ endpoint.ip ∈ entry.addresses))

theorem offered_cons (entry : OmtAddress) (rest : List OmtAddress) (endpoint : Endpoint) :
    Offered (entry :: rest) endpoint ↔ entry.Offers endpoint ∨ Offered rest endpoint := by
  simp only [Offered, List.mem_cons, exists_eq_or_imp]

/-- By a result that `from_dns_sd` accepts. -/
def OfferedByDnsSd (results : List DnsSdResult) (endpoint : Endpoint) : Prop :=
  ∃ result ∈ results, ∃ address, result.address = .ok (some address) ∧ address.Offers endpoint

def portOf (entries : List OmtAddress) (name : List Char) : Option UInt16 :=
  (entries.find? (·.instanceName = name)).map (·.port)

namespace KnownSources

theorem mem_foldl_addAddress (ip : List Char) (addresses more : List (List Char)) :
    ip ∈ more.foldl addAddress addresses ↔ ip ∈ addresses ∨ ip ∈ more := by
  induction more generalizing addresses with
  | nil => simp
  | cons other rest ih =>
      rw [List.foldl_cons, ih, addAddress, List.mem_cons]
      by_cases known : other ∈ addresses
      · have held : ip = other → ip ∈ addresses := fun same => same ▸ known
        simp only [List.contains_iff_mem, known, if_true]
        tauto
      · simp only [List.contains_iff_mem, known, if_false, List.mem_append, List.mem_singleton,
          or_assoc]

theorem portOf_cons (entry : OmtAddress) (rest : List OmtAddress) (name : List Char) :
    portOf (entry :: rest) name =
      if entry.instanceName = name then some entry.port else portOf rest name := by
  by_cases same : entry.instanceName = name <;> simp [portOf, same]

theorem portOf_skips (entries rest : List OmtAddress) (source : OmtAddress) (name : List Char)
    (apart : source.instanceName ≠ name) :
    portOf (entries ++ source :: rest) name = portOf (entries ++ rest) name := by
  simp [portOf, List.find?_append, apart]

theorem portOf_stops (entries rest : List OmtAddress) (source : OmtAddress) :
    portOf (entries ++ source :: rest) source.instanceName =
      portOf (entries ++ [source]) source.instanceName := by
  simp [portOf, List.find?_append]

@[simp] theorem addresses_instanceName (entry : OmtAddress) (addresses : List (List Char)) :
    ({ entry with addresses } : OmtAddress).instanceName = entry.instanceName := rfl

theorem mergeSource_portOf (entries rest : List OmtAddress) (source : OmtAddress)
    (name : List Char) :
    portOf (mergeSource entries source ++ rest) name = portOf (entries ++ source :: rest) name := by
  induction entries with
  | nil => rfl
  | cons entry others ih =>
      rw [mergeSource]
      by_cases found : entry.instanceName = source.instanceName
      · rw [if_pos found, List.cons_append, List.cons_append, portOf_cons, portOf_cons,
          addresses_instanceName]
        by_cases same : entry.instanceName = name
        · rw [if_pos same, if_pos same]
        · rw [if_neg same, if_neg same, portOf_skips _ _ _ _ (found ▸ same)]
      · rw [if_neg found]
        simp only [List.cons_append, portOf_cons, ih]

theorem addAddress_offers (entry : OmtAddress) (more : List (List Char)) (endpoint : Endpoint) :
    ({ entry with addresses := more.foldl addAddress entry.addresses } : OmtAddress).Offers
      endpoint ↔
    entry.Offers endpoint ∨
      (entry.instanceName = endpoint.name ∧ entry.port = endpoint.port ∧ endpoint.ip ∈ more) := by
  simp only [OmtAddress.Offers, addresses_instanceName, mem_foldl_addAddress, and_or_left]

theorem mergeSource_offered (entries : List OmtAddress) (source : OmtAddress)
    (endpoint : Endpoint) :
    Offered (mergeSource entries source) endpoint ↔ Offered entries endpoint ∨
      (source.instanceName = endpoint.name ∧ endpoint.ip ∈ source.addresses ∧
        portOf (entries ++ [source]) endpoint.name = some endpoint.port) := by
  induction entries with
  | nil =>
      simp only [mergeSource, Offered, List.mem_singleton, exists_eq_left, List.nil_append,
        portOf_cons, OmtAddress.Offers, List.not_mem_nil, false_and, exists_false, false_or]
      by_cases same : source.instanceName = endpoint.name
      · simp [same, and_comm]
      · simp [same]
  | cons entry rest ih =>
      rw [mergeSource, offered_cons, List.cons_append, portOf_cons]
      by_cases found : entry.instanceName = source.instanceName
      · rw [if_pos found, offered_cons, addAddress_offers, found]
        by_cases same : source.instanceName = endpoint.name
        · rw [if_pos same, Option.some_inj]
          tauto
        · simp only [same, false_and, or_false]
      · rw [if_neg found, offered_cons, ih]
        by_cases same : source.instanceName = endpoint.name
        · rw [if_neg (same ▸ found), or_assoc]
        · simp only [same, false_and, or_false]

theorem merged_offered (entries sources : List OmtAddress) (endpoint : Endpoint) :
    Offered (sources.foldl mergeSource entries) endpoint ↔ Offered entries endpoint ∨
      ∃ source ∈ sources, source.instanceName = endpoint.name ∧ endpoint.ip ∈ source.addresses ∧
        portOf (entries ++ sources) endpoint.name = some endpoint.port := by
  induction sources generalizing entries with
  | nil => simp
  | cons source rest ih =>
      rw [List.foldl_cons, ih, mergeSource_offered, mergeSource_portOf, or_assoc]
      simp only [List.mem_cons, exists_eq_or_imp]
      by_cases same : source.instanceName = endpoint.name
      · rw [← same, portOf_stops entries rest source]
      · simp only [same, false_and]

/-! The browse. -/

def accepted (results : List DnsSdResult) : List OmtAddress :=
  results.filterMap fun result => result.address.toOption.join

theorem accept_accepted (results : List DnsSdResult)
    (read : ∀ result ∈ results, ∃ address, result.address = .ok address) :
    accept results = .ok (accepted results) := by
  induction results with
  | nil => rfl
  | cons result rest ih =>
      obtain ⟨address, named⟩ := read result List.mem_cons_self
      have others := ih fun other member => read other (List.mem_cons_of_mem result member)
      rw [accept, named, others]
      cases address <;> simp [accepted, named, Except.toOption, bind, Except.bind, pure, Except.pure]

theorem accept_reads (results : List DnsSdResult) (addresses : List OmtAddress)
    (returned : accept results = .ok addresses) :
    ∀ result ∈ results, ∃ address, result.address = .ok address := by
  induction results generalizing addresses with
  | nil => exact fun _ member => absurd member List.not_mem_nil
  | cons result rest ih =>
      rw [accept] at returned
      cases named : result.address with
      | error panic =>
          rw [named] at returned
          cases returned
      | ok address =>
          cases others : accept rest with
          | error panic =>
              rw [named, others] at returned
              cases returned
          | ok more => exact List.forall_mem_cons.mpr ⟨⟨address, named⟩, ih more others⟩

theorem accepted_offered (results : List DnsSdResult) (endpoint : Endpoint) :
    Offered (accepted results) endpoint ↔ OfferedByDnsSd results endpoint := by
  constructor
  · rintro ⟨address, member, offers⟩
    obtain ⟨result, found, named⟩ := List.mem_filterMap.mp member
    refine ⟨result, found, address, ?_, offers⟩
    cases read : result.address with
    | error panic =>
        rw [read] at named
        cases named
    | ok answer =>
        rw [read] at named
        exact congrArg _ named
  · rintro ⟨result, found, address, named, offers⟩
    refine ⟨address, List.mem_filterMap.mpr ⟨result, found, ?_⟩, offers⟩
    rw [named]
    rfl

/-! A refresh. -/

variable {Failure : Type}

def merged (known : KnownSources) (results : List DnsSdResult) : List OmtAddress :=
  (known.serverClient.getD []).foldl mergeSource (accepted results)

theorem refreshFor_returns (known after : KnownSources) (results : List DnsSdResult) :
    known.refreshFor (.ok results : Except Failure (List DnsSdResult)) = .ok (.ok (), after) ↔
      (∀ result ∈ results, ∃ address, result.address = .ok address) ∧
        after = { known with
          sources := (known.merged results).insertionSort (·.instanceName ≤ ·.instanceName) } := by
  constructor
  · intro returned
    have read : ∀ result ∈ results, ∃ address, result.address = .ok address := by
      cases named : accept results with
      | error panic =>
          rw [refreshFor, named] at returned
          cases returned
      | ok addresses => exact accept_reads results addresses named
    rw [refreshFor, accept_accepted results read] at returned
    cases returned
    exact ⟨read, rfl⟩
  · rintro ⟨read, rfl⟩
    rw [refreshFor, accept_accepted results read]
    rfl

/-- Where a source of the client is listed under another port than its own, the browse offers
its endpoints as well, and the other port has its addresses from the browse or the client. -/
def PortsAgree (results : List DnsSdResult) (sources : List OmtAddress) : Prop :=
  ∀ source ∈ sources, ∀ ip ∈ source.addresses, ∀ port,
    portOf (accepted results ++ sources) source.instanceName = some port → port ≠ source.port →
      OfferedByDnsSd results ⟨source.instanceName, source.port, ip⟩ ∧
        (OfferedByDnsSd results ⟨source.instanceName, port, ip⟩ ∨
          Offered sources ⟨source.instanceName, port, ip⟩)

theorem portOf_member (entries : List OmtAddress) (source : OmtAddress)
    (member : source ∈ entries) : ∃ port, portOf entries source.instanceName = some port := by
  induction entries with
  | nil => cases member
  | cons entry rest ih =>
      rw [portOf_cons]
      by_cases same : entry.instanceName = source.instanceName
      · exact ⟨entry.port, if_pos same⟩
      · rw [if_neg same]
        rcases List.mem_cons.mp member with rfl | behind
        · exact absurd rfl same
        · exact ih behind

theorem merged_origins (known : KnownSources) (results : List DnsSdResult) (endpoint : Endpoint) :
    Offered (known.merged results) endpoint ↔ OfferedByDnsSd results endpoint ∨
      ∃ source ∈ known.serverClient.getD [], source.instanceName = endpoint.name ∧
        endpoint.ip ∈ source.addresses ∧
          portOf (accepted results ++ known.serverClient.getD []) endpoint.name =
            some endpoint.port := by
  rw [merged, merged_offered, accepted_offered]

theorem merged_lossless (known : KnownSources) (results : List DnsSdResult)
    (agree : PortsAgree results (known.serverClient.getD [])) (endpoint : Endpoint)
    (offered : OfferedByDnsSd results endpoint ∨ Offered (known.serverClient.getD []) endpoint) :
    Offered (known.merged results) endpoint := by
  rw [merged_origins]
  rcases offered with browsed | ⟨source, member, offers⟩
  · exact .inl browsed
  · obtain ⟨name, sourcePort, ip⟩ := endpoint
    obtain ⟨rfl, rfl, held⟩ := offers
    obtain ⟨port, listed⟩ := portOf_member (accepted results ++ known.serverClient.getD []) source
      (List.mem_append.mpr (.inr member))
    by_cases same : port = source.port
    · exact .inr ⟨source, member, rfl, held, same ▸ listed⟩
    · exact .inl (agree source member ip held port listed same).1

theorem merged_faithful (known : KnownSources) (results : List DnsSdResult)
    (agree : PortsAgree results (known.serverClient.getD [])) (endpoint : Endpoint)
    (offered : Offered (known.merged results) endpoint) :
    OfferedByDnsSd results endpoint ∨ Offered (known.serverClient.getD []) endpoint := by
  rcases (merged_origins known results endpoint).mp offered with
    browsed | ⟨source, member, named, held, listed⟩
  · exact .inl browsed
  · by_cases same : endpoint.port = source.port
    · exact .inr ⟨source, member, named, same.symm, held⟩
    · rw [← named] at listed
      have either := (agree source member endpoint.ip held endpoint.port listed same).2
      rw [named] at either
      exact either

/-- A refresh returns with every endpoint of the browse and of the client, no other one, and the
entries in order of their names, exactly if every name can be read and the ports agree. -/
theorem refresh_keeps_endpoints (known : KnownSources) (results : List DnsSdResult) :
    (∃ after, known.refreshFor (.ok results : Except Failure (List DnsSdResult)) =
        .ok (.ok (), after) ∧
      (∀ endpoint, OfferedByDnsSd results endpoint ∨ Offered (known.serverClient.getD []) endpoint →
        Offered after.sources endpoint) ∧
      (∀ endpoint, Offered after.sources endpoint →
        OfferedByDnsSd results endpoint ∨ Offered (known.serverClient.getD []) endpoint) ∧
      after.sources.Pairwise (·.instanceName ≤ ·.instanceName)) ↔
    (∀ result ∈ results, ∃ address, result.address = .ok address) ∧
      PortsAgree results (known.serverClient.getD []) := by
  have sorts : ∀ endpoint, Offered ((known.merged results).insertionSort
      (·.instanceName ≤ ·.instanceName)) endpoint ↔ Offered (known.merged results) endpoint :=
    fun endpoint => by simp only [Offered, List.mem_insertionSort]
  constructor
  · rintro ⟨after, returned, lossless, faithful, -⟩
    obtain ⟨read, rfl⟩ := (refreshFor_returns known after results).mp returned
    refine ⟨read, fun source member ip held port listed apart => ⟨?_, ?_⟩⟩
    · have kept := (sorts _).mp
        (lossless ⟨source.instanceName, source.port, ip⟩ (.inr ⟨source, member, rfl, rfl, held⟩))
      rcases (merged_origins known results _).mp kept with browsed | ⟨_, _, _, _, own⟩
      · exact browsed
      · exact absurd (Option.some_inj.mp (listed.symm.trans own)) apart
    · exact faithful ⟨source.instanceName, port, ip⟩ ((sorts _).mpr
        ((merged_origins known results _).mpr (.inr ⟨source, member, rfl, held, listed⟩)))
  · rintro ⟨read, agree⟩
    refine ⟨_, (refreshFor_returns known _ results).mpr ⟨read, rfl⟩, ?_, ?_, ?_⟩
    · exact fun endpoint offered =>
        (sorts endpoint).mpr (merged_lossless known results agree endpoint offered)
    · exact fun endpoint offered =>
        merged_faithful known results agree endpoint ((sorts endpoint).mp offered)
    · exact List.pairwise_insertionSort _ _

def camera (port : UInt16) (ip : String) : OmtAddress :=
  ⟨"Cam".toList, "HOST".toList, port, [ip.toList], false⟩

/-- Two messages of the discovery server give the client both sources; of the two, a refresh
loses the second and offers its address under the port of the first. -/
theorem second_port_lost :
    (∃ after, (⟨[], some (updateSources (updateSources [] (camera 6400 "10.0.0.1"))
        (camera 6401 "10.0.0.2"))⟩ : KnownSources).refreshFor
          (.ok [] : Except Unit (List DnsSdResult)) = .ok (.ok (), after) ∧
      ¬ Offered after.sources ⟨"HOST (Cam)".toList, 6401, "10.0.0.2".toList⟩ ∧
      Offered after.sources ⟨"HOST (Cam)".toList, 6400, "10.0.0.2".toList⟩) ∧
    Offered (updateSources (updateSources [] (camera 6400 "10.0.0.1")) (camera 6401 "10.0.0.2"))
      ⟨"HOST (Cam)".toList, 6401, "10.0.0.2".toList⟩ ∧
    ¬ Offered (updateSources (updateSources [] (camera 6400 "10.0.0.1")) (camera 6401 "10.0.0.2"))
      ⟨"HOST (Cam)".toList, 6400, "10.0.0.2".toList⟩ := by
  refine ⟨⟨_, rfl, ?_, ?_⟩, ?_, ?_⟩ <;> decide +kernel

end KnownSources

end OpenMediaTransport
