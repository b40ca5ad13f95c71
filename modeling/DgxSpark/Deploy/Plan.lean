import DgxSpark.Deploy.Render

/-!
# The redacted plan

`render_plan` (`DgxSpark.renderPlan`) puts both contracts, the ports, the actions and, under
`f1`, the fabric commands of each role into one document, and hides what `redact.py` calls
sensitive: values under listed keys, and in every other text three kinds of substrings, which
are found by matchers here (`DgxSpark.secretLength`, `DgxSpark.addressLength`,
`DgxSpark.pathLength`) where the source has regular expressions. A matcher says how long the
match at a place is, given the character before it.
-/

namespace DgxSpark

/-! ### Redaction -/

/-- `SENSITIVE_KEYS`. -/
def sensitiveKeys : List String := [
  "ssh_identity_file", "ssh_known_hosts_file", "ssh_user", "head_ssh_user", "worker_ssh_user",
  "head_host", "worker_host", "head_node_addr", "worker_node_addr", "model_root",
  "model_container_path", "remote_root", "state_root", "cache_root", "log_root", "result_root",
  "registry", "image_ref", "head_image_ref", "worker_image_ref", "image_lock_file",
  "model_manifest_sha256"]

/-- The replacement. -/
def redacted : String := "<redacted>"

/-- How long the match at a place is, if there is one. -/
abbrev Matcher := Option Char → List Char → Option Nat

/-- `pattern.sub("<redacted>", text)`: from left to right, past each match. -/
def substitute (matcher : Matcher) : Nat → Option Char → List Char → List Char
  | _, _, [] => []
  | skip + 1, _, c :: cs => substitute matcher skip (some c) cs
  | 0, previous, c :: cs =>
    match matcher previous (c :: cs) with
    | some (n + 1) => redacted.toList ++ substitute matcher n (some c) cs
    | _ => c :: substitute matcher 0 (some c) cs

/-- A letter in the case in which patterns are written, with the four letters beyond ASCII that
equal one of ASCII without regard to case. -/
def foldCase (c : Char) : Char :=
  if c.toNat = 0x17f then 's' else if c.toNat = 0x212a then 'k'
  else if c.toNat = 0x130 ∨ c.toNat = 0x131 then 'i' else c.toLower

/-- The rest after a word, in any case. -/
def afterWord (word cs : List Char) : Option (List Char) :=
  if word.isPrefixOf (cs.map foldCase) then some (cs.drop word.length) else none

/-- The first rest that some word leaves. -/
def afterWords (words : List (List Char)) (cs : List Char) : Option (List Char) :=
  words.findSome? fun word => afterWord word cs

/-- A rest without one or more characters of a class: `class+`. -/
def afterSome (p : Char → Bool) (cs : List Char) : Option (List Char) :=
  if cs.head?.any p then some (cs.dropWhile p) else none

/-- `[^\s,]`. -/
def isSecretChar (c : Char) : Bool :=
  !Text.isSpace c && c != ','

/-- The names of credentials. -/
def credentialWords : List (List Char) :=
  ["api_key".toList, "api-key".toList, "apikey".toList, "access_token".toList,
    "access-token".toList, "accesstoken".toList, "password".toList]

/-- `_SECRET_TEXT`: the rest after a match. -/
def afterSecret (cs : List Char) : Option (List Char) :=
  match afterWord "bearer".toList cs with
  | some rest => do
    let rest ← afterSome Text.isSpace rest
    afterSome isSecretChar rest
  | none =>
    match afterWords credentialWords cs with
    | none => none
    | some rest =>
      match rest.dropWhile Text.isSpace with
      | '=' :: rest | ':' :: rest => afterSome isSecretChar (rest.dropWhile Text.isSpace)
      | _ => none

/-- `_SECRET_TEXT`. -/
def secretLength : Matcher := fun _ cs =>
  (afterSecret cs).map fun rest => cs.length - rest.length

/-- `[0-9A-Fa-f]`. -/
def isHexAny (c : Char) : Bool :=
  (Ip.hexDigit c).isSome

/-- A rest that does not begin with a letter or a digit. -/
def bounded (rest : List Char) : Option (List Char) :=
  if rest.head?.any Char.isAlphanum then none else some rest

/-- `[0-9]{1,3}`, where what follows is no digit. -/
def afterOctet (cs : List Char) : Option (List Char) :=
  let digits := cs.takeWhile Char.isDigit
  if 1 ≤ digits.length ∧ digits.length ≤ 3 then some (cs.drop digits.length) else none

/-- One octet and its dot. -/
def afterDottedOctet (cs : List Char) : Option (List Char) :=
  match afterOctet cs with
  | some ('.' :: rest) => some rest
  | _ => none

/-- An address of version 4. -/
def afterDotted (cs : List Char) : Option (List Char) := do
  let rest ← afterDottedOctet cs
  let rest ← afterDottedOctet rest
  let rest ← afterDottedOctet rest
  let rest ← afterOctet rest
  bounded rest

/-- An address of version 6 in brackets. -/
def afterBracketed (cs : List Char) : Option (List Char) :=
  match cs with
  | '[' :: rest =>
    match afterSome (fun c => isHexAny c || c == ':' || c == '.') rest with
    | some (']' :: rest) => bounded rest
    | _ => none
  | _ => none

/-- `[0-9A-Fa-f]{0,4}:`. -/
def afterGroup (cs : List Char) : Option (List Char) :=
  let digits := cs.takeWhile isHexAny
  match cs.drop digits.length with
  | ':' :: rest => if digits.length ≤ 4 then some rest else none
  | _ => none

/-- The rests after up to `n` groups, the longest match first. -/
def groupRests : Nat → List Char → List (List Char)
  | 0, cs => [cs]
  | n + 1, cs =>
    match afterGroup cs with
    | some rest => groupRests n rest ++ [cs]
    | none => [cs]

/-- An address of version 6: the most groups, at least two, after which a last one ends. -/
def afterGrouped (cs : List Char) : Option (List Char) :=
  let rests := groupRests 7 cs
  (rests.take (rests.length - 2)).findSome? fun rest =>
    let digits := rest.takeWhile isHexAny
    if digits.length ≤ 4 then bounded (rest.drop digits.length) else none

/-- `_IP_TEXT`. -/
def addressLength : Matcher := fun previous cs =>
  if previous.any Char.isAlphanum then none
  else ((afterDotted cs).or ((afterBracketed cs).or (afterGrouped cs))).map fun rest =>
    cs.length - rest.length

/-- `[^,\s"']`. -/
def isPathTextChar (c : Char) : Bool :=
  c != ',' && !Text.isSpace c && c != '"' && c != '\''

/-- `_PATH_TEXT`. -/
def pathLength : Matcher := fun previous cs =>
  match cs with
  | '/' :: rest =>
    if previous.any fun c => c.isAlphanum || c == ':' || c == '/' then none
    else (afterSome isPathTextChar rest).map fun tail => cs.length - tail.length
  | _ => none

/-- `_redact_string`. -/
def redactString (value : String) : String :=
  let secrets := substitute secretLength 0 none (Text.chars value)
  let addresses := substitute addressLength 0 none secrets
  String.ofList (substitute pathLength 0 none addresses)

/-- A value under a sensitive key. -/
def redactSensitive (value : Json) : Json :=
  match value with
  | .null => .null
  | .str s => if s = "" then .str s else .str redacted
  | _ => .str redacted

mutual

/-- `redact_value`. -/
def redactValue (key : String) : Json → Json
  | .null => if sensitiveKeys.contains key then redactSensitive .null else .null
  | .bool b => if sensitiveKeys.contains key then redactSensitive (.bool b) else .bool b
  | .int n => if sensitiveKeys.contains key then redactSensitive (.int n) else .int n
  | .float lit => if sensitiveKeys.contains key then redactSensitive (.float lit) else .float lit
  | .str s => if sensitiveKeys.contains key then redactSensitive (.str s) else .str (redactString s)
  | .arr xs =>
    if sensitiveKeys.contains key then redactSensitive (.arr xs) else .arr (redactItems key xs)
  | .obj kvs =>
    if sensitiveKeys.contains key then redactSensitive (.obj kvs) else .obj (redactMembers kvs)

/-- The items of a list, under the key of the list. -/
def redactItems (key : String) : List Json → List Json
  | [] => []
  | x :: xs => redactValue key x :: redactItems key xs

/-- `redact_mapping`, on the members. -/
def redactMembers : List (String × Json) → List (String × Json)
  | [] => []
  | (key, x) :: kvs => (key, redactValue key x) :: redactMembers kvs

end

/-! ### The plan -/

/-- The fabric commands of a role. -/
def fabricCommandsOf (config : Config) (contract : Contract) : Except Exn Json := do
  let discovery ← discoveryCommands config contract.role contract.image.reference
  let commands ← applyCommands config contract.role contract.image.reference
  return .obj [
    ("discovery", .arr (discovery.map Json.ofStrings)),
    ("apply", .arr (commands.map Json.ofStrings))]

/-- The fabric commands of the plan. -/
def planFabric (config : Config) (worker head : Contract) : Except Exn Json :=
  if config.deployment.fabricProfile = .f1 then do
    let workerCommands ← fabricCommandsOf config worker
    let headCommands ← fabricCommandsOf config head
    return .obj [("worker", workerCommands), ("head", headCommands)]
  else .ok (.obj [])

/-- The actions of the plan. -/
def planActions (config : Config) : List String :=
  (if config.deployment.fabricProfile = .f1 then
    ["preflight", "capture-rollback", "fabric-apply-networkmanager", "fabric-discover",
      "fabric-verify", "preflight"]
  else ["preflight", "capture-rollback"]) ++
  ["stage-contracts", "create-worker", "create-head", "start-worker", "start-head", "verify"]

/-- `render_plan`. -/
def renderPlan (config : Config) (lock : Option Lock) : Except Exn Json := do
  let worker ← renderContract config .worker lock none
  let head ← renderContract config .head lock none
  let fabric ← planFabric config worker head
  return .obj (redactMembers [
    ("schema_version", .int 1),
    ("deployment_id", .str (deploymentId config)),
    ("config_sha256", .str (configSha256 config)),
    ("profile_id", .str config.profile.profileId),
    ("mode", .str config.deployment.mode.text),
    ("fabric_profile", .str config.deployment.fabricProfile.text),
    ("ports", .obj [
      ("api", Json.ofNat config.deployment.apiPort),
      ("master", Json.ofNat config.deployment.masterPort),
      ("forward", Json.ofNat config.deployment.forwardLocalPort)]),
    ("actions", Json.ofStrings (planActions config)),
    ("fabric_commands", fabric),
    ("roles", .obj [("worker", worker.toJson), ("head", head.toJson)])])

example : redactString "src=/srv/a,dst=/b on 192.0.2.10:22" =
    "src=<redacted>,dst=<redacted> on <redacted>:22" := by decide +kernel

end DgxSpark
