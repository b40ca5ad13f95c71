import DgxSpark.Lib.Ip
import DgxSpark.Deploy.Config

/-!
# Fabric commands and their read-backs

The network side of a deployment, as `fabric.py` has it: the specification of one role's
fabric interface (`DgxSpark.fabricSpec`), the commands that read its state and the ones
that set it up (`DgxSpark.discoveryCommands`, `DgxSpark.applyCommands`), and the parsers of
what the commands print. Nothing here runs anything.

The parsers are fail-closed in their own class, `FabricError`, except where Python itself
gives up first: iterating over a value that is not iterable, or reading a number out of
something else. Those exceptions leave the parsers as they are, and are modelled as such.

| | |
|---|---|
| the NetworkManager profiles | `DgxSpark.parseNmConnectionState` |
| the address of the interface | `DgxSpark.parseAddressOutput` |
| its link state | `DgxSpark.parseLinkOutput` |
| the GID and its attributes | `DgxSpark.parseGidOutput`, `DgxSpark.parseGidAttributes` |
-/

namespace DgxSpark

/-- `_fail` of the fabric module. -/
def fabricFail (condition : Bool) (message : String) : Except Exn Unit :=
  failWith .fabric condition message

/-- `str` of an optional text. -/
def strOption (s : Option String) : String :=
  s.getD "None"

/-! ### The specification of a role -/

/-- What `fabric_spec` returns. -/
structure FabricSpec where
  profile : FabricProfile
  role : Role
  interface : String
  hca : String
  address : String
  peer : Option String
  cidr : Option String
  connection : Option String
  gidIndex : Option Int
  mtu : Nat
deriving DecidableEq, Repr

/-- The specification as JSON. -/
def FabricSpec.toJson (s : FabricSpec) : Json := .obj [
  ("profile", .str s.profile.text),
  ("role", .str s.role.text),
  ("interface", .str s.interface),
  ("hca", .str s.hca),
  ("address", .str s.address),
  ("peer", Json.ofText? s.peer),
  ("cidr", Json.ofText? s.cidr),
  ("connection", Json.ofText? s.connection),
  ("gid_index", Json.ofInt? s.gidIndex),
  ("mtu", Json.ofNat s.mtu)]

def f1Iface : String := "enp1s0f1np1"

def f1Hca : String := "rocep1s0f1"

def f1Mtu : Nat := 9000

/-- The values of a role's specification, before the checks. -/
def specValues (deployment : Deployment) (role : Role) : FabricSpec where
  profile := deployment.fabricProfile
  role := role
  interface := (deployment.settings role).netIface
  hca := (deployment.settings role).hca
  address := (deployment.settings role).nodeAddr
  peer := (deployment.settings role).fabricPeer
  cidr := (deployment.settings role).fabricCidr
  connection := (deployment.settings role).fabricConnection
  gidIndex := (deployment.settings role).roceGidIndex.or deployment.roceGidIndex
  mtu := deployment.roceMtu

/-- The checks of the `f1` profile. -/
def checkF1 (value : FabricSpec) : Except Exn Unit := do
  let role := value.role.text
  fabricFail (value.interface != f1Iface) (role ++ " f1 interface must be " ++ f1Iface)
  fabricFail (value.hca != f1Hca) (role ++ " f1 HCA must be " ++ f1Hca)
  fabricFail (value.cidr.isNone || value.peer.isNone) (role ++ " f1 address and peer are required")
  fabricFail value.connection.isNone (role ++ " f1 NetworkManager connection is required")
  fabricFail (value.mtu != f1Mtu) ("f1 MTU must be " ++ toString f1Mtu)
  match Ip.parseInterface (strOption value.cidr), Ip.parse (strOption value.peer) with
  | some interface, some peer =>
    fabricFail (interface.prefixLength != 24) (role ++ " f1 address must use /24")
    fabricFail (!interface.contains peer) (role ++ " f1 peer is outside the /24")
  | _, _ => .error ⟨.fabric, role ++ " f1 address or peer is malformed"⟩
  fabricFail (value.gidIndex.any fun index => !(decide (0 ≤ index) && decide (index ≤ 255)))
    (role ++ " f1 GID index is outside 0..255")

/-- The checks of a specification: only the `f1` profile has any. -/
def checkSpec (value : FabricSpec) : Except Exn Unit :=
  if value.profile = .f1 then checkF1 value else .ok ()

/-- `fabric_spec`. -/
def fabricSpec (config : Config) (role : Role) : Except Exn FabricSpec := do
  checkSpec (specValues config.deployment role)
  return specValues config.deployment role

/-- Past its checks, a specification is the values of the configuration. -/
theorem fabricSpec_eq_ok {config : Config} {role : Role} {spec : FabricSpec}
    (h : fabricSpec config role = .ok spec) : spec = specValues config.deployment role := by
  obtain ⟨-, -, h⟩ := except_bind_eq_ok.1 h
  exact (Except.ok.inj h).symm

/-! ### Helper commands -/

/-- `helper_argv`: a host command, run through the privileged image. -/
def helperArgv (imageRef : String) (command : List String) (writable : Bool) :
    Except Exn (List String) := do
  fabricFail (imageRef == "" || command.any fun token => (Text.chars token).contains '\x00')
    "fabric helper command is malformed"
  return ["docker", "run", "--rm", "--privileged", "--network", "host", "--entrypoint",
    "/usr/sbin/chroot", "--volume", "/:/host:" ++ (if writable then "rw" else "ro"), imageRef,
    "/host"] ++ command

/-- The argv of a helper command. -/
theorem helperArgv_eq_ok {imageRef : String} {command : List String} {writable : Bool}
    {argv : List String} (h : helperArgv imageRef command writable = .ok argv) :
    argv = ["docker", "run", "--rm", "--privileged", "--network", "host", "--entrypoint",
      "/usr/sbin/chroot", "--volume", "/:/host:" ++ (if writable then "rw" else "ro"), imageRef,
      "/host"] ++ command := by
  obtain ⟨-, -, h⟩ := except_bind_eq_ok.1 h
  exact (Except.ok.inj h).symm

/-! ### NetworkManager -/

/-- `nm_connection_state_command`. -/
def nmConnectionStateCommand (config : Config) (role : Role) : Except Exn (List String) := do
  let fabric ← fabricSpec config role
  fabricFail (fabric.profile != .f1) "NetworkManager state requires FABRIC_PROFILE=f1"
  return ["nmcli", "-t", "-f", "NAME,UUID,DEVICE,ACTIVE", "connection", "show"]

/-- One row of the terse output. -/
structure NmProfile where
  name : String
  uuid : String
  device : String
  active : Bool
deriving DecidableEq, Repr

/-- What `parse_nm_connection_state` returns. -/
structure NmState where
  interface : String
  targetConnection : String
  targetExisted : Bool
  targetUuid : Option String
  targetDevice : Option String
  targetActive : Bool
  activeConnection : Option String
  activeUuid : Option String
  activeDevice : Option String
deriving DecidableEq, Repr

/-- The members of the state as JSON. -/
def NmState.members (s : NmState) : List (String × Json) := [
  ("interface", .str s.interface),
  ("target_connection", .str s.targetConnection),
  ("target_existed", .bool s.targetExisted),
  ("target_uuid", Json.ofText? s.targetUuid),
  ("target_device", Json.ofText? s.targetDevice),
  ("target_active", .bool s.targetActive),
  ("active_connection", Json.ofText? s.activeConnection),
  ("active_uuid", Json.ofText? s.activeUuid),
  ("active_device", Json.ofText? s.activeDevice)]

/-- One line of the terse output. -/
def parseNmLine (role : Role) (line : String) : Except Exn NmProfile :=
  match Text.splitOn ':' line with
  | [name, uuid, device, active] => do
    fabricFail (Text.strip name == "" || Text.strip uuid == "")
      (role.text ++ " NetworkManager profile identity is incomplete")
    return ⟨Text.strip name, Text.strip uuid, Text.strip device,
      ["yes", "true", "activated"].contains (Text.lower (Text.strip active))⟩
  | _ => .error ⟨.fabric, role.text ++ " NetworkManager profile read-back is malformed"⟩

/-- The rows of the terse output, blank lines left out. -/
def parseNmProfiles (role : Role) (stdout : String) : Except Exn (List NmProfile) :=
  ((Text.splitLines stdout).filter fun line => Text.strip line != "").mapM (parseNmLine role)

/-- The state of the target and of the interface among the profiles. -/
def nmStateOf (spec : FabricSpec) (profiles : List NmProfile) : Except Exn NmState := do
  let targetName := strOption spec.connection
  let targets := profiles.filter fun p => p.name == targetName
  fabricFail (targets.length > 1)
    (spec.role.text ++ " NetworkManager target profile is ambiguous")
  let active := profiles.filter fun p => p.active && p.device == spec.interface
  fabricFail (active.length > 1)
    (spec.role.text ++ " has multiple active NetworkManager profiles")
  return {
    interface := spec.interface
    targetConnection := targetName
    targetExisted := targets.head?.isSome
    targetUuid := targets.head?.map NmProfile.uuid
    targetDevice := targets.head?.map NmProfile.device
    targetActive := (targets.head?.map NmProfile.active).getD false
    activeConnection := active.head?.map NmProfile.name
    activeUuid := active.head?.map NmProfile.uuid
    activeDevice := active.head?.map NmProfile.device }

/-- `parse_nm_connection_state`. -/
def parseNmConnectionState (stdout : String) (spec : FabricSpec) : Except Exn NmState := do
  let profiles ← parseNmProfiles spec.role stdout
  nmStateOf spec profiles

/-! ### Discovery -/

/-- `gid_discovery_command`. -/
def gidDiscoveryCommand (config : Config) (role : Role) (imageRef : String) :
    Except Exn (List String) := do
  let spec ← fabricSpec config role
  let script :=
    "for i in $(seq 0 31); do " ++
    "p=/sys/class/infiniband/" ++ spec.hca ++ "/ports/1/gids/$i; " ++
    "n=/sys/class/infiniband/" ++ spec.hca ++ "/ports/1/gid_attrs/ndevs/$i; " ++
    "t=/sys/class/infiniband/" ++ spec.hca ++ "/ports/1/gid_attrs/types/$i; " ++
    "if test -r \"$p\" && test -r \"$n\" && test -r \"$t\"; then " ++
    "g=$(cat \"$p\"); ndev=$(cat \"$n\"); typ=$(cat \"$t\"); " ++
    "if test \"$ndev\" = \"" ++ spec.interface ++ "\" && test \"$typ\" = \"RoCE v2\"; then " ++
    "case \"$g\" in 0000:0000:0000:0000:0000:ffff:*) printf '%s=%s\\n' \"$i\" \"$g\"; exit 0 ;; " ++
    "esac; fi; fi; done; exit 0"
  helperArgv imageRef ["/bin/sh", "-c", script] false

/-- The peer check of `discovery_commands`, when there is a peer. -/
def pingCommands (spec : FabricSpec) : List (List String) :=
  match spec.peer with
  | none => []
  | some peer =>
    if peer = "" then [] else [["ping", "-I", spec.interface, "-c", "3", "-W", "1", peer]]

/-- `discovery_commands`. -/
def discoveryCommands (config : Config) (role : Role) (imageRef : String) :
    Except Exn (List (List String)) := do
  let spec ← fabricSpec config role
  let commands := [
    ["ip", "-json", "address", "show", "dev", spec.interface],
    ["ip", "-json", "link", "show", "dev", spec.interface],
    ["rdma", "-j", "link"],
    ["ibdev2netdev", "-v"]]
  let gid ← match spec.gidIndex with
    | some index => helperArgv imageRef ["/bin/cat", "/sys/class/infiniband/" ++ spec.hca ++
        "/ports/1/gids/" ++ toString index] false
    | none => gidDiscoveryCommand config role imageRef
  return commands ++ pingCommands spec ++ [gid]

/-- `gid_attribute_commands`. -/
def gidAttributeCommands (config : Config) (role : Role) (imageRef : String) (gidIndex : Int) :
    Except Exn (List String × List String) := do
  let spec ← fabricSpec config role
  let base := "/sys/class/infiniband/" ++ spec.hca ++ "/ports/1/gid_attrs"
  let ndevs ← helperArgv imageRef ["/bin/cat", base ++ "/ndevs/" ++ toString gidIndex] false
  let types ← helperArgv imageRef ["/bin/cat", base ++ "/types/" ++ toString gidIndex] false
  return (ndevs, types)

/-! ### Applying the profile -/

/-- The shell fragment that adds a connection unless it is there. -/
def ensureScript : String :=
  "if /usr/bin/nmcli connection show \"$1\" >/dev/null 2>&1; then exit 0; " ++
  "else /usr/bin/nmcli connection add type ethernet ifname \"$2\" con-name \"$1\"; fi"

/-- The host commands of `apply_commands`, in order. -/
def applyHostCommands (spec : FabricSpec) : List (List String) :=
  let iface := spec.interface
  let cidr := strOption spec.cidr
  let connection := strOption spec.connection
  let mtu := toString spec.mtu
  [["/bin/sh", "-c", ensureScript, "dgx-fabric", connection, iface],
    ["/bin/ip", "link", "set", "dev", iface, "mtu", mtu],
    ["/bin/ip", "addr", "replace", cidr, "dev", iface],
    ["/bin/ip", "link", "set", "dev", iface, "up"],
    ["/usr/bin/nmcli", "connection", "modify", connection, "ipv4.method", "manual",
      "ipv4.addresses", cidr, "ipv4.never-default", "yes", "ipv6.method", "disabled",
      "connection.autoconnect", "yes", "802-3-ethernet.mtu", mtu],
    ["/usr/bin/nmcli", "connection", "up", connection]]

/-- `apply_commands`: every step through the writable helper. -/
def applyCommands (config : Config) (role : Role) (imageRef : String) :
    Except Exn (List (List String)) := do
  let spec ← fabricSpec config role
  fabricFail (spec.profile != .f1) "network apply requires FABRIC_PROFILE=f1"
  (applyHostCommands spec).mapM fun command => helperArgv imageRef command true

/-! ### Parsers of read-backs -/

/-- The items of a loop over a value, or Python's complaint. -/
def iterate (j : Json) : Except Exn (List Json) :=
  match j.iter? with
  | some items => .ok items
  | none => .error ⟨.type, "object is not iterable"⟩

/-- `int(value)`, or Python's complaint: a text or a float that is no integer has the wrong
value, anything else the wrong type. -/
def pyInt (j : Json) : Except Exn Int :=
  match j.toInt?, j with
  | some n, _ => .ok n
  | none, .str _ => .error ⟨.value, "invalid literal for int()"⟩
  | none, .float _ => .error ⟨.value, "cannot convert float to integer"⟩
  | none, _ => .error ⟨.type, "int() argument must be a string or a number"⟩

/-- The prefix length that the address read-back has to show. -/
def expectedPrefix (cidr : Option String) : Except Exn Json :=
  match cidr with
  | none => .ok .null
  | some cidr =>
    if cidr = "" then .ok .null
    else match (Text.splitOn '/' cidr).reverse with
      | last :: _ :: _ => do
        let n ← pyInt (.str last)
        return .int n
      | _ => .error ⟨.value, "list index out of range"⟩

/-- `parse_address_output`. -/
def parseAddressOutput (stdout : String) (spec : FabricSpec) : Except Exn Unit := do
  let role := spec.role.text
  let empty := role ++ " interface address read-back is empty"
  match Json.loads stdout with
  | none => .error ⟨.fabric, "ip address read-back was not JSON"⟩
  | some (.arr []) => .error ⟨.fabric, empty⟩
  | some (.arr records) =>
    let expected ← expectedPrefix spec.cidr
    let found ← (records.filter Json.isMapping).mapM fun record => do
      let addrs ← iterate (record.getD "addr_info" (.arr []))
      return addrs.any fun addr => addr.isMapping &&
        (addr.get "local").pyEq (.str spec.address) && (addr.get "prefixlen").pyEq expected
    fabricFail (!found.any id) (role ++ " f1 address/prefix is missing")
  | some _ => .error ⟨.fabric, empty⟩

/-- `parse_link_output`. -/
def parseLinkOutput (stdout : String) (spec : FabricSpec) : Except Exn Unit := do
  let role := spec.role.text
  match Json.loads stdout with
  | none => .error ⟨.fabric, "ip link read-back was not JSON"⟩
  | some (.arr [record]) =>
    fabricFail (!record.isMapping) (role ++ " interface link read-back is malformed")
    fabricFail (!(record.get "ifname").pyEq (.str spec.interface))
      (role ++ " interface name drifted")
    let mtu ← pyInt (record.getD "mtu" (.int 0))
    fabricFail (mtu != spec.mtu) (role ++ " interface MTU drifted")
    fabricFail (Text.upper (record.getD "operstate" (.str "")).pyStr != "UP")
      (role ++ " interface is not up")
    let flags ← iterate (record.getD "flags" (.arr []))
    let lowerUp := flags.any fun flag => Text.upper flag.pyStr == "LOWER_UP"
    failWith .type (!lowerUp && !(record.get "link_detected").hashable) "unhashable type"
    fabricFail (!lowerUp && !((record.get "link_detected").pyEq (.bool true)))
      (role ++ " interface carrier is down")
  | some _ => .error ⟨.fabric, role ++ " interface link read-back is ambiguous"⟩

/-- Eight groups of four hexadecimal digits. -/
def isGid (value : String) : Bool :=
  let fields := (Text.chars value).splitOn ':'
  fields.length == 8 && fields.all fun f => f.length == 4 && f.all Text.isHexLower

/-- A GID that carries an IPv4 address. -/
def isIpv4MappedGid (value : String) : Bool :=
  isGid value && (Text.chars "0000:0000:0000:0000:0000:ffff:").isPrefixOf (Text.chars value)

/-- `parse_gid_discovery_output`. -/
def parseGidDiscoveryOutput (stdout : String) : Except Exn (Int × String) :=
  let found := (Text.splitLines stdout).filterMap fun line =>
    match Text.cut '=' line with
    | none => none
    | some (index, value) =>
      let value := Text.lower (Text.strip value)
      if Text.isDecimalText index && isIpv4MappedGid value then some ((Text.toNat index : Int), value)
      else none
  match found with
  | entry :: _ => .ok entry
  | [] => .error ⟨.fabricNotReady, "no populated IPv4-mapped RoCE GID was discovered"⟩

/-- `parse_gid_output`. -/
def parseGidOutput (stdout : String) (spec : FabricSpec) : Except Exn Unit := do
  let value := Text.lower (Text.strip stdout)
  fabricFail (!isGid value) (spec.role.text ++ " GID read-back is malformed")
  failWith .fabricNotReady ((Text.chars value).all fun c => c == ':' || c == '0')
    (spec.role.text ++ " configured GID is all-zero")

/-- `parse_gid_attributes`. -/
def parseGidAttributes (ndevStdout typeStdout : String) (spec : FabricSpec) :
    Except Exn Unit := do
  failWith .fabricNotReady (Text.strip ndevStdout == "" || Text.strip typeStdout == "")
    (spec.role.text ++ " GID attributes are not ready")
  fabricFail (Text.strip ndevStdout != spec.interface)
    (spec.role.text ++ " GID ndev does not match f1 interface")
  fabricFail (!(["rocev2", "roce v2"].contains (Text.lower (Text.strip typeStdout))))
    (spec.role.text ++ " GID type is not RoCEv2")

/-- `verify_rdma_output`. -/
def verifyRdmaOutput (stdout : String) (spec : FabricSpec) : Except Exn Unit := do
  let text := Text.lower stdout
  fabricFail (!Text.contains text (Text.lower spec.hca))
    (spec.role.text ++ " HCA is absent from RDMA mapping")
  fabricFail (!Text.contains text (Text.lower spec.interface) && !Text.contains text "active")
    (spec.role.text ++ " HCA/interface mapping is not active")

end DgxSpark
