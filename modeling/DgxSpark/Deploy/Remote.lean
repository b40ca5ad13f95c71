import DgxSpark.Deploy.Config

/-!
# Running commands on the nodes

Every remote operation is an argv vector. It reaches a node through a runner that the
caller injects, or through `ssh`: the vector is joined into one shell word list, put behind
a strict `ssh` command line (`DgxSpark.sshArgv`), and run as a local process. Files are
copied with a command line of the same shape (`DgxSpark.scpArgv`).

What the processes do is the environment's (`DgxSpark.Env`): functions from a command and a
state of the world to a result and the next state, of which nothing is assumed here. So is
the local disk, on which a file lies until it is copied. The two
ways a command can be refused before it runs, and the two texts a failed one is reported
with, are the source's.
-/

namespace DgxSpark

/-- What a finished command leaves: `CommandResult`. -/
structure CommandResult where
  returncode : Int
  stdout : String
  stderr : String
deriving DecidableEq, Repr

/-! ### Shell words -/

/-- The characters that `shlex.quote` leaves bare. -/
def isShellSafe (c : Char) : Bool :=
  c.isAlphanum || "_@%+=:,./-".toList.contains c

/-- `shlex.quote`. -/
def shellQuote (s : String) : String :=
  if s = "" then "''"
  else if (Text.chars s).all isShellSafe then s
  else "'" ++ String.ofList ((Text.chars s).flatMap fun c =>
    if c = '\'' then ['\'', '"', '\'', '"', '\''] else [c]) ++ "'"

/-- `shlex.join`. -/
def shellJoin (argv : List String) : String :=
  String.intercalate " " (argv.map shellQuote)

/-! ### Command lines -/

/-- `raise ValueError` on a condition. -/
def valueFail (condition : Bool) (message : String) : Except Exn Unit :=
  failWith .value condition message

/-- A first character of one class and the others of another, `re.fullmatch` of the two
patterns for hosts and users. -/
def matchesHeadTail (head tail : Char → Bool) (s : String) : Bool :=
  match Text.chars s with
  | [] => false
  | c :: cs => head c && cs.all tail

/-- `_SAFE_HOST`. -/
def isSafeHost (s : String) : Bool :=
  matchesHeadTail Char.isAlphanum (fun c => c.isAlphanum || "_.:-".toList.contains c) s

/-- `_SAFE_USER`. -/
def isSafeUser (s : String) : Bool :=
  matchesHeadTail (fun c => c.isAlpha || c == '_')
    (fun c => c.isAlphanum || "_.-".toList.contains c) s

/-- An absolute path without `..`. -/
def isAbsoluteTraversalFree (path : String) : Bool :=
  (Text.chars path).head? == some '/' && !(Text.splitOn '/' path).contains ".."

/-- `ssh_argv` with the default connection timeout. -/
def sshArgv (host user : String) (port : Nat) (knownHosts : String) (command : List String)
    (identityFile : Option String) : Except Exn (List String) := do
  valueFail (!isSafeHost host) "SSH host must be an explicit address"
  valueFail (!isSafeUser user) "SSH user contains unsafe characters"
  valueFail (port < 1 || port > 65535) "SSH port is outside the valid range"
  valueFail (!isAbsoluteTraversalFree knownHosts)
    "known-hosts path must be absolute and traversal-free"
  valueFail (identityFile.any fun path => !isAbsoluteTraversalFree path)
    "SSH identity path must be absolute and traversal-free"
  valueFail (command.isEmpty || command.contains "")
    "SSH command must contain non-empty argument tokens"
  let identity := match identityFile with
    | none => []
    | some path => ["-i", path]
  return ["ssh", "-T", "-o", "BatchMode=yes", "-o", "StrictHostKeyChecking=yes",
    "-o", "UserKnownHostsFile=" ++ knownHosts, "-o", "ConnectTimeout=10"] ++ identity ++
    ["-p", toString port, user ++ "@" ++ host] ++ command

/-- `scp_argv`: the options of the `ssh` command line up to its port. -/
def scpArgv (source host user : String) (port : Nat) (knownHosts destination : String)
    (identityFile : Option String) : Except Exn (List String) := do
  valueFail (source == "" || destination == "" || (Text.chars source).contains '\x00' ||
    (Text.chars destination).contains '\x00') "SCP source and destination must be non-empty"
  let ssh ← sshArgv host user port knownHosts ["true"] identityFile
  let options := (ssh.drop 1).takeWhile (· != "-p")
  return ["scp"] ++ options ++ ["-P", toString port, source, user ++ "@" ++ host ++ ":" ++
    destination]

/-- The host that `ssh` connects to for a role. -/
def sshHost (deployment : Deployment) (role : Role) : String :=
  let settings := deployment.settings role
  if settings.sshHost = "" then settings.host else settings.sshHost

/-- The identity file, when one is configured. -/
def identityFile (deployment : Deployment) : Option String :=
  deployment.sshIdentityFile.filter (· != "")

/-- The command line of `SSHRunner` for a role. -/
def sshCommand (deployment : Deployment) (role : Role) (command : List String) :
    Except Exn (List String) :=
  sshArgv (sshHost deployment role) (deployment.settings role).sshUser deployment.sshPort
    deployment.sshKnownHostsFile [shellJoin command] (identityFile deployment)

/-! ### The environment -/

/-- What runs commands: the runners the caller injected, if any, and local processes. -/
structure Env (σ : Type) where
  /-- `runner`: a command for a role, when injected -/
  runner : Option (Role → List String → σ → CommandResult × σ)
  /-- `scp_runner`: a copy, when injected -/
  scpRunner : Option (List String → σ → CommandResult × σ)
  /-- a local process -/
  process : List String → σ → CommandResult × σ
  /-- a local file is written, under its path, with its text -/
  writeFile : String → String → σ → σ
  /-- the directory that `tempfile.TemporaryDirectory` makes -/
  temporaryDirectory : String

variable {σ : Type}

/-- The text of a failed command's error output, after a colon. -/
def stderrSuffix (result : CommandResult) : String :=
  if Text.strip result.stderr = "" then "" else ": " ++ Text.strip result.stderr

/-- `run_local`: a process that fails is a `RemoteError`. -/
def runLocal (env : Env σ) (argv : List String) (world : σ) : Except Exn CommandResult × σ :=
  let (result, world) := env.process argv world
  if result.returncode ≠ 0 then
    (.error ⟨.remote, "command failed (" ++ toString result.returncode ++ "): " ++
      String.intercalate " " argv ++ stderrSuffix result⟩, world)
  else (.ok result, world)

/-- What `_remote` makes of a command for a role. An injected runner reports a failure by its
return code; the `ssh` runner raises, and its `RemoteError` becomes a `LifecycleError`. A
command line that cannot be built is a `ValueError`. -/
def execRemote (env : Env σ) (deployment : Deployment) (role : Role) (command : List String)
    (world : σ) : Except Exn CommandResult × σ :=
  match env.runner with
  | some run =>
    let (result, world) := run role command world
    if result.returncode ≠ 0 then
      (.error ⟨.lifecycle, role.text ++ " command failed: " ++ String.intercalate " " command ++
        stderrSuffix result⟩, world)
    else (.ok result, world)
  | none =>
    match sshCommand deployment role command with
    | .error e => (.error e, world)
    | .ok argv =>
      match runLocal env argv world with
      | (.error e, world) => (.error ⟨.lifecycle, e.message⟩, world)
      | (.ok result, world) => (.ok result, world)

/-- What `_scp` makes of a copy. An injected runner reports a failure by its return code; the
default one is `run_local`, whose `RemoteError` is not caught. -/
def execScp (env : Env σ) (argv : List String) (world : σ) : Except Exn CommandResult × σ :=
  match env.scpRunner with
  | some run =>
    let (result, world) := run argv world
    if result.returncode ≠ 0 then
      (.error ⟨.lifecycle, "staging command failed: " ++ String.intercalate " " argv⟩, world)
    else (.ok result, world)
  | none => runLocal env argv world

end DgxSpark
