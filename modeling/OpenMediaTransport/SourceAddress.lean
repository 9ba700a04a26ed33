import OpenMediaTransport.MetadataXml

/-!
`OmtAddress` of `address.rs`. Every function that slices a name by bytes answers
in `Except Panic`: an error is the thread's end, not a value the caller sees.
The host name and the local addresses come from the environment and are
arguments.
-/

namespace OpenMediaTransport

open Markup Text

structure OmtAddress where
  name : List Char
  machineName : List Char
  port : UInt16
  addresses : List (List Char)
  removed : Bool
  deriving DecidableEq, Repr

/-- NUL and line ends are removed from names. -/
def nameChar (char : Char) : Bool := char != '\x00' && char != '\n' && char != '\r'

def sanitizeName (raw : List Char) : List Char := trim (raw.filter nameChar)

/-- `MACHINE (Source)` taken apart. -/
def splitFullName (full : List Char) : Except Panic (Option (List Char × List Char)) :=
  match find? full '(' with
  | none => .ok none
  | some opened =>
      match rfind? full ')' with
      | none => .ok none
      | some closed =>
          if opened = 0 ∨ closed ≤ opened then .ok none
          else do
            let machine := trim (← sliceTo full opened)
            let name := trim (← slice full (opened + 1) closed)
            if machine.isEmpty ∨ name.isEmpty then return none
            return some (machine, name)

/-- `HOST (Cam)._omt._tcp.local.` → `HOST (Cam)`. -/
def stripOmtServiceSuffix (fqdn : List Char) : Except Panic (List Char) :=
  let trimmed := trimEndMatches (· == '.') fqdn
  match findText? (trimmed.map asciiLower) "._omt.".toList with
  | some position => sliceTo trimmed position
  | none => .ok trimmed

namespace OmtAddress

/-- DNS-SD instance name: `MACHINE (Name)`. -/
def instanceName (address : OmtAddress) : List Char :=
  if address.machineName.isEmpty then address.name
  else address.machineName ++ " (".toList ++ address.name ++ ")".toList

def limitNameLength (address : OmtAddress) : Except Panic OmtAddress :=
  let full := byteLength address.instanceName
  if full ≤ maxInstanceNameLength then .ok address
  else
    let oversize := full - maxInstanceNameLength
    if oversize < byteLength address.name then do
      let kept ← sliceTo address.name (byteLength address.name - oversize)
      return { address with name := trim kept }
    else .ok address

def create (name : List Char) (port : UInt16) : Except Panic OmtAddress :=
  limitNameLength
    { name := sanitizeName name, machineName := [], port, addresses := [], removed := false }

def fromFullName (fullName : List Char) (port : UInt16) : Except Panic OmtAddress := do
  let full := sanitizeName fullName
  match ← splitFullName full with
  | some (machine, name) =>
      limitNameLength { name, machineName := machine, port, addresses := [], removed := false }
  | none => create full port

def isValidName (fullName : List Char) : Bool := fullName.contains '(' && fullName.contains ')'

def fromDnsSd (fullnameOrInstance : List Char) (port : UInt16) (addresses : List (List Char)) :
    Except Panic (Option OmtAddress) := do
  let instanceText ← stripOmtServiceSuffix fullnameOrInstance
  if !isValidName instanceText || port == 0 then return none
  let address ← fromFullName instanceText port
  return some { address with addresses }

/-- `OmtAddress::local`: addresses with a colon go last. -/
def localAddress (hostname : List Char) (localIps : List (List Char)) (sourceName : List Char)
    (port : UInt16) : Except Panic OmtAddress :=
  limitNameLength {
    name := sanitizeName sourceName
    machineName := sanitizeName hostname
    port
    addresses := localIps.filter (fun ip => !ip.contains ':') ++ localIps.filter (·.contains ':')
    removed := false }

end OmtAddress

def urlPrefix : List Char := "omt://".toList

/-- `host:port` of a URL; a colon with nothing before it belongs to the host. -/
def urlHostPort (hostPort : List Char) : Except OmtError (List Char × UInt16) :=
  match rsplitOnce hostPort ':' with
  | none => .ok (hostPort, 0)
  | some (host, port) =>
      if host.isEmpty then .ok (hostPort, 0)
      else match parseU16 port with
        | some port => .ok (host, port)
        | none => .error (.invalidArgument ("invalid port in URL: " ++ String.ofList port))

/-- What follows the scheme: the part before the first slash, and the part after it. -/
def urlParts (rest : List Char) : List Char × List Char := (splitOnce rest '/').getD (rest, [])

namespace OmtAddress

def fromUrl (url : List Char) : Except Panic (Except OmtError OmtAddress) :=
  if !urlPrefix.isPrefixOf url then
    .ok (.error (.invalidArgument ("URL must start with " ++ String.ofList urlPrefix)))
  else do
    let rest ← sliceFrom url (byteLength urlPrefix)
    match urlHostPort (urlParts rest).1 with
    | .error error => return .error error
    | .ok (host, port) =>
        let name := if (urlParts rest).2.isEmpty then host else (urlParts rest).2
        let address ← limitNameLength {
          name := sanitizeName name
          machineName := []
          port
          addresses := [host]
          removed := false }
        return .ok address

def missingName : OmtError := .invalidArgument "OMTAddress XML missing Name"

/-- The loop of `from_xml`: the first address document decides. -/
def fromItems : List Metadata → Except Panic (Except OmtError OmtAddress)
  | [] => .ok (.error missingName)
  | .address name port removed addresses :: _ =>
      if name.isEmpty then .ok (.error missingName)
      else do
        let address ← fromFullName name port
        return .ok { address with removed, addresses }
  | _ :: rest => fromItems rest

def fromXml (documentParse : List Char → Except String XmlNode) (xml : List Char) :
    Except Panic (Except OmtError OmtAddress) :=
  fromItems (parseMetadata documentParse xml)

end OmtAddress

end OpenMediaTransport
