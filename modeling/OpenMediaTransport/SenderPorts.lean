import OpenMediaTransport.SettingsStore
import OpenMediaTransport.WireTypes

/-!
What the settings are for: the discovery server, and the ports among which a sender looks for
one to listen on, `bind_port_range` of `send.rs`. Both are read from keys before the name of
the root, so that a save keeps them, whatever else is in the settings.
-/

namespace OpenMediaTransport.Settings

open Text

/-- `str::parse` of a signed number of 32 bits. -/
def parseI32 (text : List Char) : Option Int32 :=
  let negative := text.head? = some '-'
  let digits := if negative ∨ text.head? = some '+' then text.tail else text
  if digits.isEmpty then none
  else match digitsValue digits with
    | none => none
    | some value =>
        if negative then if value ≤ 2 ^ 31 then some (.ofInt (-value)) else none
        else if value < 2 ^ 31 then some (.ofInt value) else none

def getInteger (values : Values) (key : List Char) (default : Int32) : Int32 :=
  let value := getString values key []
  if value.isEmpty then default else (parseI32 value).getD default

def keyDiscoveryServer : List Char := "DiscoveryServer".toList
def keyNetworkPortStart : List Char := "NetworkPortStart".toList
def keyNetworkPortEnd : List Char := "NetworkPortEnd".toList

def defaultPortStart : UInt16 := 6400
def defaultPortEnd : UInt16 := 6600

/-- `None` is for DNS-SD. -/
def discoveryServer (values : Values) : Option (List Char) :=
  let url := trim (getString values keyDiscoveryServer [])
  if url.isEmpty then none else some url

def portOrDefault (value : Int32) (default : UInt16) : UInt16 :=
  if 0 ≤ value.toInt ∧ value.toInt < 65536 then .ofNat value.toInt.toNat else default

/-- `i32::from` of a port. -/
def ofPort (port : UInt16) : Int32 := .ofInt port.toNat

def networkPortRange (values : Values) : UInt16 × UInt16 :=
  (portOrDefault (getInteger values keyNetworkPortStart (ofPort defaultPortStart)) defaultPortStart,
    portOrDefault (getInteger values keyNetworkPortEnd (ofPort defaultPortEnd)) defaultPortEnd)

section Bind
variable {S L : Type} (listen : UInt16 → Option S) (intoListener : S → Except OmtError L)

/-- The loop of `bind_port_range_between`; a socket that listens ends it. -/
def bindFirst : List UInt16 → Option (Except OmtError (L × UInt16))
  | [] => none
  | port :: later =>
      match listen port with
      | some socket => some ((intoListener socket).map fun listener => (listener, port))
      | none => bindFirst later

/-- `start..=end`. -/
def portsBetween (start stop : UInt16) : List UInt16 :=
  (List.range (stop.toNat + 1 - start.toNat)).map fun offset => .ofNat (start.toNat + offset)

def bindPortRangeBetween (start stop : UInt16) : Except OmtError (L × UInt16) :=
  (if start ≤ stop then bindFirst listen intoListener (portsBetween start stop) else none).getD
    (.error (.network s!"no free port in {start}..={stop}"))

def bindPortRange (values : Values) : Except OmtError (L × UInt16) :=
  bindPortRangeBetween listen intoListener (networkPortRange values).1 (networkPortRange values).2

/-- The lowest port of the range that can be listened on, or the error that there is none. -/
inductive Bound (start stop : UInt16) : Except OmtError (L × UInt16) → Prop
  | lowest (port : UInt16) (inside : start ≤ port ∧ port ≤ stop) (socket : S)
      (free : listen port = some socket)
      (before : ∀ other, start ≤ other → other < port → listen other = none) :
      Bound start stop ((intoListener socket).map fun listener => (listener, port))
  | taken (all : ∀ other, start ≤ other → other ≤ stop → listen other = none) :
      Bound start stop (.error (.network s!"no free port in {start}..={stop}"))

/-! Numbers as text. -/

theorem integerText_trimmed (value : Int32) : Trimmed (integerText value) := by
  have digits := decimal_trimmed value.toInt.natAbs
  unfold integerText
  split
  · refine ⟨fun char rest shape => ?_, fun front char shape => ?_⟩
    · cases shape
      decide
    · cases front with
      | nil =>
          have empty := (List.cons_eq_cons.mp shape).2
          exact absurd empty (decimal_ne_nil _)
      | cons first middle => exact digits.last middle char (List.cons_eq_cons.mp shape).2
  · exact digits

theorem parseI32_integerText (value : Int32) : parseI32 (integerText value) = some value := by
  have low := value.le_toInt
  have high := value.toInt_lt
  have some := decimal_ne_nil value.toInt.natAbs
  have read := digitsValue_decimal value.toInt.natAbs
  unfold integerText
  split
  · rename_i negative
    have size : -(value.toInt.natAbs : Int) = value.toInt := by omega
    simp only [parseI32, List.head?_cons, true_or, if_true, List.tail_cons, List.isEmpty_iff, some,
      if_false, read]
    rw [if_pos (by omega), size, Int32.ofInt_toInt]
  · rename_i positive
    obtain ⟨char, rest, shape⟩ := List.exists_cons_of_ne_nil some
    have digit := decimal_digit value.toInt.natAbs char (by rw [shape]; exact List.mem_cons_self)
    have minus : ¬ (decimal value.toInt.natAbs).head? = .some '-' := by
      rw [shape]
      rintro ⟨⟩
      exact absurd digit (by decide)
    have plus : ¬ (decimal value.toInt.natAbs).head? = .some '+' := by
      rw [shape]
      rintro ⟨⟩
      exact absurd digit (by decide)
    have size : (value.toInt.natAbs : Int) = value.toInt := by omega
    simp only [parseI32, minus, plus, or_false, if_false, List.isEmpty_iff, some, read]
    rw [if_pos (by omega), size, Int32.ofInt_toInt]

theorem portOrDefault_ofPort (port default : UInt16) : portOrDefault (ofPort port) default = port := by
  have small := port.toNat_lt
  have same : (ofPort port).toInt = port.toNat := Int32.toInt_ofInt_of_le (by omega) (by omega)
  unfold portOrDefault
  rw [if_pos (by omega), same, Int.toNat_natCast, UInt16.ofNat_toNat]

theorem port_read (values : Values) (key : List Char) (port default : UInt16)
    (holds : lookup values key = some (integerText (ofPort port))) :
    portOrDefault (getInteger values key (ofPort default)) default = port := by
  have some : integerText (ofPort port) ≠ [] := by
    unfold integerText
    split
    · exact List.cons_ne_nil _ _
    · exact decimal_ne_nil _
  unfold getInteger getString
  rw [holds, Option.getD_some]
  dsimp only
  rw [if_neg (by rwa [List.isEmpty_iff]), parseI32_integerText, Option.getD_some,
    portOrDefault_ofPort]

/-! The port that is found. -/

theorem mem_portsBetween (start stop port : UInt16) :
    port ∈ portsBetween start stop ↔ start ≤ port ∧ port ≤ stop := by
  have high := stop.toNat_lt
  rw [UInt16.le_iff_toNat_le, UInt16.le_iff_toNat_le]
  constructor
  · intro member
    obtain ⟨offset, inside, rfl⟩ := List.mem_map.mp member
    have small := List.mem_range.mp inside
    have same : (UInt16.ofNat (start.toNat + offset)).toNat = start.toNat + offset :=
      UInt16.toNat_ofNat_of_lt' (by change _ < 65536; omega)
    omega
  · rintro ⟨low, most⟩
    refine List.mem_map.mpr ⟨port.toNat - start.toNat, List.mem_range.mpr (by omega), ?_⟩
    rw [Nat.add_sub_cancel' low, UInt16.ofNat_toNat]

theorem portsBetween_sorted (start stop : UInt16) :
    (portsBetween start stop).Pairwise fun first later => first < later := by
  have high := stop.toNat_lt
  refine List.pairwise_map.mpr ?_
  refine List.Pairwise.imp_of_mem ?_ List.pairwise_lt_range
  intro first later early late below
  have small := List.mem_range.mp late
  rw [UInt16.lt_iff_toNat_lt, UInt16.toNat_ofNat_of_lt' (by change _ < 65536; omega),
    UInt16.toNat_ofNat_of_lt' (by change _ < 65536; omega)]
  omega

theorem bindFirst_cases (ports : List UInt16) :
    (bindFirst listen intoListener ports = none ∧ ∀ port ∈ ports, listen port = none) ∨
      ∃ front port back socket, ports = front ++ port :: back ∧ listen port = some socket ∧
        (∀ other ∈ front, listen other = none) ∧ bindFirst listen intoListener ports =
          some ((intoListener socket).map fun listener => (listener, port)) := by
  induction ports with
  | nil => exact .inl ⟨rfl, fun _ none => absurd none List.not_mem_nil⟩
  | cons port later ih =>
      rw [bindFirst]
      cases answer : listen port with
      | some socket =>
          exact .inr ⟨[], port, later, socket, rfl, answer,
            fun _ none => absurd none List.not_mem_nil, rfl⟩
      | none =>
          rcases ih with ⟨none, all⟩ | ⟨front, other, back, socket, rfl, free, before, found⟩
          · exact .inl ⟨none, List.forall_mem_cons.mpr ⟨answer, all⟩⟩
          · exact .inr ⟨port :: front, other, back, socket, rfl, free,
              List.forall_mem_cons.mpr ⟨answer, before⟩, found⟩

theorem bindPortRangeBetween_bound (start stop : UInt16) :
    Bound listen intoListener start stop (bindPortRangeBetween listen intoListener start stop) := by
  unfold bindPortRangeBetween
  split
  · rcases bindFirst_cases listen intoListener (portsBetween start stop) with
      ⟨none, all⟩ | ⟨front, port, back, socket, split, free, before, found⟩
    · rw [none]
      exact .taken fun other low high => all other ((mem_portsBetween start stop other).mpr ⟨low, high⟩)
    · rw [found]
      have member : port ∈ portsBetween start stop := by
        rw [split]
        exact List.mem_append_right front List.mem_cons_self
      have inside := (mem_portsBetween start stop port).mp member
      refine .lowest port inside socket free fun other low below => ?_
      have listed : other ∈ portsBetween start stop :=
        (mem_portsBetween start stop other).mpr
          ⟨low, UInt16.le_trans (UInt16.le_of_lt below) inside.2⟩
      have sorted := portsBetween_sorted start stop
      rw [split] at listed sorted
      rcases List.mem_append.mp listed with early | late
      · exact before other early
      · -- What is behind the port is above it.
        obtain ⟨-, rest, -⟩ := List.pairwise_append.mp sorted
        rcases List.mem_cons.mp late with rfl | behind
        · exact absurd below (UInt16.lt_irrefl other)
        · exact absurd below (UInt16.lt_asymm ((List.pairwise_cons.mp rest).1 other behind))
  · rename_i empty
    exact .taken fun other low high => absurd (UInt16.le_trans low high) empty
end Bind

/-! A key over a run. -/

/-- The step does not change the key, and it reads no file but one of the store's own. -/
def StoreStep.Leaves (key : List Char) : StoreStep → Prop
  | .call (.setString other _) => other ≠ key
  | .call (.setInteger other _) => other ≠ key
  | .call (.remove other) => other ≠ key
  | .rewritten _ => False
  | _ => True

section Key
variable {key value : List Char}

theorem leaves_values (plain : Plain) (step : StoreStep) (leaves : step.Leaves key)
    (unread : step ≠ .reload) : (plain.act step).values key = plain.values key := by
  have apart (other text : List Char) (differs : other ≠ key) :
      (if isXmlName other then Function.update plain.values other (some text)
        else plain.values) key = plain.values key := by
    split
    · exact Function.update_of_ne (Ne.symm differs) _ _
    · rfl
  cases step with
  | call next =>
      cases next with
      | setString other text => exact apart other text leaves
      | setInteger other number => exact apart other (integerText number) leaves
      | remove other => exact Function.update_of_ne (Ne.symm leaves) _ _
  | save => rfl
  | reload => exact absurd rfl unread
  | rewritten file => exact leaves.elim

theorem saved_early (reading : Reading) (early : key < rootName.1)
    (holds : reading key = some value) : reading.saved key = some (trim value) := by
  unfold Reading.saved
  rw [if_neg fun cut => cut.2 early, holds]
  rfl

/-- In memory and in the file, up to the trimming. -/
structure Stays (key value : List Char) (plain : Plain) : Prop where
  values : plain.values key = some value ∨ plain.values key = some (trim value)
  file : plain.file key = some (trim value)

theorem stays_kept (plain : Plain) (step : StoreStep) (early : key < rootName.1)
    (leaves : step.Leaves key) (stays : Stays key value plain) : Stays key value (plain.act step) := by
  cases step with
  | call next =>
      have same := leaves_values plain (.call next) leaves (by simp)
      exact ⟨by rw [same]; exact stays.values, stays.file⟩
  | save =>
      refine ⟨stays.values, ?_⟩
      rcases stays.values with exact_ | trimmed
      · exact saved_early plain.values early exact_
      · exact (saved_early plain.values early trimmed).trans (congrArg some (trim_trim value))
  | reload => exact ⟨.inr stays.file, stays.file⟩
  | rewritten file => exact leaves.elim

theorem stays_run (plain : Plain) (steps : List StoreStep) (early : key < rootName.1)
    (leaves : ∀ step ∈ steps, step.Leaves key) (stays : Stays key value plain) :
    Stays key value (plain.run steps) := by
  induction steps generalizing plain with
  | nil => exact stays
  | cons step later ih =>
      exact ih _ (fun other member => leaves other (List.mem_cons_of_mem step member))
        (stays_kept plain step early (leaves step List.mem_cons_self) stays)

theorem key_survives (plain : Plain) (before after : List StoreStep) (early : key < rootName.1)
    (unsaved : ∀ step ∈ before, step.Leaves key ∧ step ≠ .reload)
    (leaves : ∀ step ∈ after, step.Leaves key) (holds : plain.values key = some value) :
    Stays key value (plain.run (before ++ .save :: after)) := by
  induction before generalizing plain with
  | nil =>
      exact stays_run (plain.act .save) after early leaves
        ⟨.inl holds, saved_early plain.values early holds⟩
  | cons step later ih =>
      obtain ⟨untouched, unread⟩ := unsaved step List.mem_cons_self
      exact ih (plain.act step) (fun other member => unsaved other (List.mem_cons_of_mem step member))
        ((leaves_values plain step untouched unread).trans holds)
end Key

/-! What the owner of the settings is served by. -/

def ownKeys : List (List Char) := [keyDiscoveryServer, keyNetworkPortStart, keyNetworkPortEnd]

theorem ownKeys_early : ∀ key ∈ ownKeys, key < rootName.1 := by decide

def configuring (server : List Char) (start stop : UInt16) : List StoreStep :=
  [.call (.setString keyDiscoveryServer server),
    .call (.setInteger keyNetworkPortStart (ofPort start)),
    .call (.setInteger keyNetworkPortEnd (ofPort stop))]

theorem configured (plain : Plain) (server : List Char) (start stop : UInt16) :
    (plain.run (configuring server start stop)).values keyDiscoveryServer = some server ∧
    (plain.run (configuring server start stop)).values keyNetworkPortStart =
      some (integerText (ofPort start)) ∧
    (plain.run (configuring server start stop)).values keyNetworkPortEnd =
      some (integerText (ofPort stop)) := by
  have named : isXmlName keyDiscoveryServer = true ∧ isXmlName keyNetworkPortStart = true ∧
      isXmlName keyNetworkPortEnd = true := by decide
  have apart : keyDiscoveryServer ≠ keyNetworkPortStart ∧ keyDiscoveryServer ≠ keyNetworkPortEnd ∧
      keyNetworkPortStart ≠ keyNetworkPortEnd := by decide
  simp [configuring, Plain.run, Plain.act, Reading.call, named, apart]

/-- What is set and saved is in effect, whatever becomes of other keys, and however often the
settings are saved and loaded again: the server up to white space, the range, and the lowest
port of it that is free. -/
theorem settings_take_effect {S L : Type} (listen : UInt16 → Option S)
    (intoListener : S → Except OmtError L) (store : Store) (server : List Char)
    (start stop : UInt16) (before after : List StoreStep)
    (unsaved : ∀ key ∈ ownKeys, ∀ step ∈ before, step.Leaves key ∧ step ≠ .reload)
    (leaves : ∀ key ∈ ownKeys, ∀ step ∈ after, step.Leaves key) :
    let values := (store.run (configuring server start stop ++ (before ++ .save :: after))).values
    discoveryServer values = (if trim server = [] then none else some (trim server)) ∧
      networkPortRange values = (start, stop) ∧
      Bound listen intoListener start stop (bindPortRange listen intoListener values) := by
  intro values
  obtain ⟨url, first, last⟩ := configured store.plain server start stop
  have reached : lookup values = (Plain.run (store.plain.run (configuring server start stop))
      (before ++ .save :: after)).values := by
    have refined : (store.run (configuring server start stop ++ (before ++ .save :: after))).plain =
        store.plain.run (configuring server start stop ++ (before ++ .save :: after)) :=
      (List.foldl_hom Store.plain fun early step => (act_plain early step).symm).symm
    refine (congrArg Plain.values refined).trans (congrArg Plain.values ?_)
    exact List.foldl_append
  have survives {key value : List Char} (own : key ∈ ownKeys)
      (holds : (store.plain.run (configuring server start stop)).values key = some value) :
      lookup values key = some value ∨ lookup values key = some (trim value) := by
    rw [reached]
    exact (key_survives _ before after (ownKeys_early key own) (unsaved key own) (leaves key own)
      holds).values
  have number {key : List Char} {port : UInt16} (own : key ∈ ownKeys)
      (holds : (store.plain.run (configuring server start stop)).values key =
        some (integerText (ofPort port))) : lookup values key = some (integerText (ofPort port)) := by
    have stays := survives own holds
    rwa [trim_of_trimmed _ (integerText_trimmed _), or_self] at stays
  have range : networkPortRange values = (start, stop) := by
    unfold networkPortRange
    rw [port_read values _ start _ (number (by decide) first),
      port_read values _ stop _ (number (by decide) last)]
  refine ⟨?_, range, ?_⟩
  · have kept : trim (getString values keyDiscoveryServer []) = trim server := by
      unfold getString
      rcases survives (by decide) url with same | trimmed
      · rw [same, Option.getD_some]
      · rw [trimmed, Option.getD_some, trim_trim]
    unfold discoveryServer
    dsimp only
    rw [kept]
    exact if_congr List.isEmpty_iff rfl rfl
  · unfold bindPortRange
    rw [range]
    exact bindPortRangeBetween_bound listen intoListener start stop

def foreignKey : StoreStep := .call (.setString rootName.1 "x".toList)

theorem foreignKey_leaves : ∀ key ∈ ownKeys, foreignKey.Leaves key := by
  have apart : rootName.1 ∉ ownKeys := by decide
  exact fun key own same => apart (same ▸ own)

def busyPort (port : UInt16) : Option UInt16 := if port = 7000 then none else some port

theorem settings_take_effect_busy :
    let values := ((⟨OrderedMap.empty, none⟩ : Store).run
      (configuring " omt://server:6399 ".toList 7000 7001 ++
        ([foreignKey] ++ .save :: [.reload, foreignKey, .save, .reload]))).values
    discoveryServer values = some "omt://server:6399".toList ∧
      networkPortRange values = (7000, 7001) ∧
      Bound busyPort Except.ok 7000 7001 (bindPortRange busyPort Except.ok values) := by
  obtain ⟨server, ports⟩ := settings_take_effect busyPort Except.ok ⟨OrderedMap.empty, none⟩
    " omt://server:6399 ".toList 7000 7001 [foreignKey] [.reload, foreignKey, .save, .reload]
    (fun key own step member => by
      rw [List.mem_singleton.mp member]
      exact ⟨foreignKey_leaves key own, by simp [foreignKey]⟩)
    (fun key own step member => by
      simp only [List.mem_cons, List.not_mem_nil, or_false] at member
      rcases member with rfl | rfl | rfl | rfl
      · trivial
      · exact foreignKey_leaves key own
      · trivial
      · trivial)
  exact ⟨server.trans (by decide), ports⟩

end OpenMediaTransport.Settings
