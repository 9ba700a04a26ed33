import OpenMediaTransport.SettledNames

/-!
`to_url` and `from_url`. A URL is cut at its first slash, and what stands before that at
its last colon. A host with colons of its own, which is an IPv6 address, is therefore read
back if a port follows it, and loses its end otherwise.
-/

namespace OpenMediaTransport

open Text

namespace OmtAddress

/-- The advertised host, or the first address. -/
def urlHost (address : OmtAddress) : List Char :=
  if address.machineName.isEmpty then (address.addresses.head?).getD "127.0.0.1".toList
  else address.machineName

def toUrl (address : OmtAddress) : List Char :=
  if address.port == 0 then urlPrefix ++ (address.urlHost ++ '/' :: address.name)
  else
    urlPrefix ++ (address.urlHost ++ ':' :: (decimal address.port.toNat ++ '/' :: address.name))

end OmtAddress

/-! The texts of IP addresses. -/

def Ipv4Text (text : List Char) : Prop :=
  ∃ a b c d : UInt8, text = decimal a.toNat ++ '.' :: (decimal b.toNat ++ '.' ::
    (decimal c.toNat ++ '.' :: decimal d.toNat))

def ipHexDigit (char : Char) : Bool :=
  char.isDigit || ('a' ≤ char && char ≤ 'f') || ('A' ≤ char && char ≤ 'F')

/-- Sixteen bits of an address. -/
def HexGroup (text : List Char) : Prop :=
  1 ≤ text.length ∧ text.length ≤ 4 ∧ ∀ char ∈ text, ipHexDigit char = true

def joinColons : List (List Char) → List Char
  | [] => []
  | [group] => group
  | group :: next :: rest => group ++ ':' :: joinColons (next :: rest)

/-- Groups, and the sixteen-bit words they are; the last two may be written as an IPv4 address. -/
inductive Ipv6Groups : List (List Char) → Nat → Prop where
  | nil : Ipv6Groups [] 0
  | dotted (text : List Char) (quad : Ipv4Text text) : Ipv6Groups [text] 2
  | cons (group : List Char) (rest : List (List Char)) (words : Nat) (hex : HexGroup group)
      (later : Ipv6Groups rest words) : Ipv6Groups (group :: rest) (words + 1)

/-- All eight words, or two colons for those that are zero. -/
inductive Ipv6Text : List Char → Prop where
  | full (groups : List (List Char)) (eight : Ipv6Groups groups 8) : Ipv6Text (joinColons groups)
  | short (front back : List (List Char)) (words : Nat) (hex : ∀ group ∈ front, HexGroup group)
      (last : Ipv6Groups back words) (room : front.length + words ≤ 7) :
      Ipv6Text (joinColons front ++ ':' :: ':' :: joinColons back)

/-- What is relied on of a host: no slash, and no colon that only an empty text precedes. -/
structure UrlHost (host : List Char) : Prop where
  noSlash : '/' ∉ host
  given : host ≠ []
  colons : ':' ∈ host → 2 ≤ host.count ':'

theorem UrlHost.front (host front back : List Char) (url : UrlHost host)
    (cut : rsplitOnce host ':' = some (front, back)) : front ≠ [] := by
  obtain ⟨parts, last⟩ := rsplitOnce_parts host front back ':' cut
  rintro rfl
  have colons := url.colons (by rw [parts]; exact List.mem_append_right _ List.mem_cons_self)
  rw [parts, List.nil_append, List.count_cons_self, List.count_eq_zero_of_not_mem last] at colons
  exact absurd colons (by decide)

theorem ipv4_chars (text : List Char) (quad : Ipv4Text text) :
    text ≠ [] ∧ ∀ char ∈ text, char.isDigit = true ∨ char = '.' := by
  obtain ⟨a, b, c, d, rfl⟩ := quad
  constructor
  · simp [decimal_ne_nil]
  · intro char member
    simp only [List.mem_append, List.mem_cons] at member
    rcases member with digit | dot | digit | dot | digit | dot | digit
    · exact .inl (decimal_digit _ char digit)
    · exact .inr dot
    · exact .inl (decimal_digit _ char digit)
    · exact .inr dot
    · exact .inl (decimal_digit _ char digit)
    · exact .inr dot
    · exact .inl (decimal_digit _ char digit)

theorem ipv4_host (text : List Char) (quad : Ipv4Text text) : UrlHost text ∧ ':' ∉ text := by
  obtain ⟨some, chars⟩ := ipv4_chars text quad
  have free (mark : Char) (other : mark.isDigit = false ∧ mark ≠ '.') : mark ∉ text := by
    intro member
    rcases chars mark member with digit | dot
    · rw [other.1] at digit
      cases digit
    · exact other.2 dot
  have noColon := free ':' (by decide)
  exact ⟨⟨free '/' (by decide), some, fun colon => absurd colon noColon⟩, noColon⟩

theorem joinColons_slash (groups : List (List Char)) (clear : ∀ group ∈ groups, '/' ∉ group) :
    '/' ∉ joinColons groups := by
  induction groups with
  | nil => exact List.not_mem_nil
  | cons group rest ih =>
      obtain ⟨own, others⟩ := List.forall_mem_cons.mp clear
      cases rest with
      | nil => exact own
      | cons next more =>
          rw [joinColons, List.mem_append, List.mem_cons]
          rintro (inside | colon | later)
          · exact own inside
          · exact absurd colon (by decide)
          · exact ih others later

theorem joinColons_colons (groups : List (List Char)) :
    groups.length ≤ (joinColons groups).count ':' + 1 := by
  induction groups with
  | nil => exact Nat.zero_le _
  | cons group rest ih =>
      cases rest with
      | nil => exact Nat.le_add_left _ _
      | cons next more =>
          rw [joinColons, List.count_append, List.count_cons_self]
          simp only [List.length_cons] at ih ⊢
          omega

theorem hexGroup_slash (group : List Char) (hex : HexGroup group) : '/' ∉ group := by
  intro member
  exact absurd (hex.2.2 '/' member) (by decide)

theorem ipv6Groups_clear (groups : List (List Char)) (words : Nat) (split : Ipv6Groups groups words) :
    (∀ group ∈ groups, '/' ∉ group) ∧ words ≤ groups.length + 1 := by
  induction split with
  | nil => exact ⟨(fun _ member => nomatch member), Nat.zero_le _⟩
  | dotted text quad =>
      refine ⟨?_, Nat.le_refl 2⟩
      intro group member
      rw [List.mem_singleton.mp member]
      exact (ipv4_host text quad).1.noSlash
  | cons group rest words hex later ih =>
      refine ⟨List.forall_mem_cons.mpr ⟨hexGroup_slash group hex, ih.1⟩, ?_⟩
      exact Nat.succ_le_succ ih.2

theorem ipv6_host (text : List Char) (address : Ipv6Text text) : UrlHost text ∧ ':' ∈ text := by
  have parts : '/' ∉ text ∧ 2 ≤ text.count ':' := by
    cases address with
    | full groups eight =>
        obtain ⟨clear, words⟩ := ipv6Groups_clear groups 8 eight
        have colons := joinColons_colons groups
        exact ⟨joinColons_slash groups clear, by omega⟩
    | short front back words hex last room =>
        have before := joinColons_slash front fun group member => hexGroup_slash group (hex group member)
        have behind := joinColons_slash back (ipv6Groups_clear back words last).1
        constructor
        · simp [before, behind]
          -- The two colons in the middle are enough.
        · rw [List.count_append, List.count_cons_self, List.count_cons_self]
          omega
  have colon : ':' ∈ text := List.count_pos_iff.mp (Nat.lt_of_lt_of_le Nat.two_pos parts.2)
  exact ⟨⟨parts.1, List.ne_nil_of_mem colon, fun _ => parts.2⟩, colon⟩

/-! Reading a URL. -/

theorem fromUrl_named (hostPort name : List Char) (noSlash : '/' ∉ hostPort) (named : name ≠ [])
    (sanitized : sanitizeName name = name) (short : byteLength name ≤ maxInstanceNameLength) :
    OmtAddress.fromUrl (urlPrefix ++ (hostPort ++ '/' :: name)) =
      .ok ((urlHostPort hostPort).map fun part =>
        { name, machineName := [], port := part.2, addresses := [part.1], removed := false }) := by
  have scheme := isPrefixOf_append urlPrefix (hostPort ++ '/' :: name)
  have after : sliceFrom (urlPrefix ++ (hostPort ++ '/' :: name)) (byteLength urlPrefix) =
      .ok (hostPort ++ '/' :: name) := sliceFrom_back urlPrefix _
  have parts : urlParts (hostPort ++ '/' :: name) = (hostPort, name) := by
    rw [urlParts, splitOnce_front hostPort name '/' noSlash]
    rfl
  have given : ¬ name.isEmpty = true := by simpa using named
  unfold OmtAddress.fromUrl
  rw [if_neg (by rw [scheme]; exact Bool.false_ne_true), after]
  dsimp only [bind, Except.bind]
  rw [parts]
  dsimp only
  cases urlHostPort hostPort with
  | error error => rfl
  | ok part =>
      have fits := limit_fits
        { name, machineName := [], port := part.2, addresses := [part.1], removed := false } short
      dsimp only
      rw [if_neg given, sanitized, fits]
      rfl

theorem urlHostPort_port (host : List Char) (port : UInt16) (given : host ≠ []) :
    urlHostPort (host ++ ':' :: decimal port.toNat) = .ok (host, port) := by
  have digits : ':' ∉ decimal port.toNat := by
    intro member
    exact absurd (decimal_digit _ ':' member) (by decide)
  have some : ¬ host.isEmpty = true := by simpa using given
  rw [urlHostPort, rsplitOnce_back host _ ':' digits]
  dsimp only
  rw [if_neg some, parseU16_decimal]

/-- Without a port the host is read back exactly if it has no colon. -/
theorem urlHostPort_bare (host : List Char) (url : UrlHost host) :
    urlHostPort host = .ok (host, 0) ↔ ':' ∉ host := by
  unfold urlHostPort
  constructor
  · intro read colon
    cases cut : rsplitOnce host ':' with
    | none => exact (rsplitOnce_none host ':').mp cut colon
    | some parts =>
        obtain ⟨front, back⟩ := parts
        have some : ¬ front.isEmpty = true := by simpa using url.front host front back cut
        rw [cut] at read
        dsimp only at read
        rw [if_neg some] at read
        cases parsed : parseU16 back with
        | none => simp [parsed] at read
        | some port =>
            simp only [parsed, Except.ok.injEq, Prod.mk.injEq] at read
            -- The host would be what stands before its own last colon.
            have whole := congrArg List.length (rsplitOnce_parts host front back ':' cut).1
            rw [read.1, List.length_append, List.length_cons] at whole
            omega
  · intro noColon
    rw [(rsplitOnce_none host ':').mpr noColon]

/-! The round trip. -/

/-- A sanitised name that fits, and a machine name without separators or an IP address. -/
structure UrlReady (address : OmtAddress) : Prop where
  sanitized : sanitizeName address.name = address.name
  named : address.name ≠ []
  short : byteLength address.name ≤ maxInstanceNameLength
  host : (address.machineName ≠ [] ∧ ':' ∉ address.machineName ∧ '/' ∉ address.machineName) ∨
    (address.machineName = [] ∧ ∃ ip rest, address.addresses = ip :: rest ∧
      (Ipv4Text ip ∨ Ipv6Text ip))

/-- It comes back under the same name, at the same port of the same host. -/
def ReadBack (address : OmtAddress) : Prop :=
  ∃ read, OmtAddress.fromUrl address.toUrl = .ok (.ok read) ∧ read.port = address.port ∧
    read.name = address.name ∧ read.addresses = [address.urlHost]

theorem UrlReady.urlHost (address : OmtAddress) (ready : UrlReady address) :
    UrlHost address.urlHost := by
  rcases ready.host with ⟨machine, noColon, noSlash⟩ | ⟨none, ip, rest, first, text⟩
  · have same : address.urlHost = address.machineName := if_neg (by simpa using machine)
    rw [same]
    exact ⟨noSlash, machine, fun colon => absurd colon noColon⟩
  · have same : address.urlHost = ip := by
      rw [OmtAddress.urlHost, none, first]
      rfl
    rw [same]
    rcases text with quad | long
    · exact (ipv4_host ip quad).1
    · exact (ipv6_host ip long).1

/-- An address is read back from its URL exactly if the URL has a port or the host no colon. -/
theorem url_roundtrip_iff (address : OmtAddress) (ready : UrlReady address) :
    ReadBack address ↔ address.port ≠ 0 ∨ ':' ∉ address.urlHost := by
  have url := ready.urlHost
  unfold ReadBack
  by_cases bare : address.port = 0
  · have written : address.toUrl = urlPrefix ++ (address.urlHost ++ '/' :: address.name) :=
      if_pos (beq_iff_eq.mpr bare)
    rw [written, fromUrl_named _ _ url.noSlash ready.named ready.sanitized ready.short,
      ← urlHostPort_bare _ url]
    constructor
    · rintro ⟨read, taken, port, _, host⟩
      right
      cases parsed : urlHostPort address.urlHost with
      | error error => simp [parsed, Except.map] at taken
      | ok part =>
          simp only [parsed, Except.map, Except.ok.injEq] at taken
          subst taken
          rw [← bare, ← port, ← List.singleton_inj.mp host]
    · rintro (some | parsed)
      · exact absurd bare some
      · rw [parsed, bare]
        exact ⟨_, rfl, rfl, rfl, rfl⟩
  · have written : address.toUrl = urlPrefix ++
        ((address.urlHost ++ ':' :: decimal address.port.toNat) ++ '/' :: address.name) := by
      rw [List.append_assoc]
      exact if_neg (by simpa using bare)
    have noSlash : '/' ∉ address.urlHost ++ ':' :: decimal address.port.toNat := by
      have digits : '/' ∉ decimal address.port.toNat := fun member =>
        absurd (decimal_digit _ '/' member) (by decide)
      simp [url.noSlash, digits]
    rw [written, fromUrl_named _ _ noSlash ready.named ready.sanitized ready.short,
      urlHostPort_port _ _ url.given]
    exact iff_of_true ⟨_, rfl, rfl, rfl, rfl⟩ (.inl bare)

def loopback (port : UInt16) : OmtAddress :=
  { name := "Cam 1/2".toList, machineName := [], port, addresses := ["::1".toList], removed := false }

theorem loopback_ready (port : UInt16) : UrlReady (loopback port) where
  sanitized := show sanitizeName "Cam 1/2".toList = "Cam 1/2".toList by decide
  named := show "Cam 1/2".toList ≠ [] by decide
  short := show byteLength "Cam 1/2".toList ≤ maxInstanceNameLength by decide
  host := by
    have hex : HexGroup "1".toList := ⟨by decide, by decide, List.all_eq_true.mp (by decide)⟩
    have one : Ipv6Groups ["1".toList] 1 := .cons _ _ _ hex .nil
    exact .inr ⟨rfl, _, _, rfl, .inr (.short [] ["1".toList] 1 (by simp) one (by decide))⟩

theorem url_roundtrip_iff_loopback :
    ReadBack (loopback 6400) ↔ (6400 : UInt16) ≠ 0 ∨ ':' ∉ "::1".toList :=
  url_roundtrip_iff (loopback 6400) (loopback_ready 6400)

/-- `omt://::1/Cam 1/2` is read as port 1 of a host that is a colon. -/
theorem loopback_misread :
    UrlReady (loopback 0) ∧ ¬ ReadBack (loopback 0) ∧
      OmtAddress.fromUrl (loopback 0).toUrl =
        .ok (.ok { loopback 1 with addresses := [":".toList] }) := by
  have read : OmtAddress.fromUrl (loopback 0).toUrl =
      .ok (.ok { loopback 1 with addresses := [":".toList] }) := by
    decide +kernel
  refine ⟨loopback_ready 0, ?_, read⟩
  rintro ⟨back, taken, port, _⟩
  rw [read] at taken
  cases taken
  exact absurd port (by decide)

end OpenMediaTransport
