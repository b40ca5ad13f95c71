import DgxSpark.Deploy.Fabric

/-!
# What a command asks of a node

The engine speaks to a node in argv vectors. A statement about what it does speaks of
containers and of network profiles, so this file reads the vectors: `DgxSpark.interpret`
gives the operation that a vector asks for, under the name of its object. Whatever touches
neither a container nor a profile is `DgxSpark.Command.other`.

A command of the host that goes through the privileged helper is read through it
(`DgxSpark.interpret_helper`).
-/

namespace DgxSpark

/-- An operation of a node. -/
inductive Command where
  | inspect (name : String)
  /-- with the words after the name: options, image, command -/
  | create (name : String) (words : List String)
  | start (name : String)
  | stop (name : String)
  | rm (name : String)
  | imageInspect (reference : String)
  | nmShow
  /-- the step of `apply_commands` that adds a connection unless it is there -/
  | nmEnsure (connection interface : String)
  | nmUp (connection : String)
  | nmDown (connection : String)
  | nmDelete (connection : String)
  | other
deriving DecidableEq, Repr

namespace Command

/-- The operations that change neither a container nor the activation of a profile: what is
asked for without a mutation, in the sense of the rollback's documentation. -/
def isRead : Command → Bool
  | inspect _ | imageInspect _ | nmShow | other => true
  | _ => false

/-- The operations on containers that only look. -/
def sparesContainers : Command → Bool
  | create _ _ | start _ | stop _ | rm _ => false
  | _ => true

/-- The operations on profiles that only look. -/
def sparesProfiles : Command → Bool
  | nmEnsure _ _ | nmUp _ | nmDown _ | nmDelete _ => false
  | _ => true

theorem isRead_iff (c : Command) :
    c.isRead = true ↔ c.sparesContainers = true ∧ c.sparesProfiles = true := by
  cases c <;> simp [isRead, sparesContainers, sparesProfiles]

end Command

/-- A `docker container` command: its object is the last word. -/
def containerCommand (verb : String) (words : List String) : Command :=
  let name := words.getLast?.getD ""
  if verb = "inspect" then .inspect name
  else if verb = "start" then .start name
  else if verb = "stop" then .stop name
  else if verb = "rm" then .rm name
  else if verb = "create" then
    match words with
    | "--name" :: name :: words => .create name words
    | words => .create "" words
  else .other

/-- An `nmcli` command. -/
def nmcliCommand (words : List String) : Command :=
  match words with
  | ["-t", "-f", _, "connection", "show"] => .nmShow
  | ["connection", "up", connection] => .nmUp connection
  | ["connection", "down", connection] => .nmDown connection
  | ["connection", "delete", connection] => .nmDelete connection
  | _ => .other

/-- A command of the host. -/
def hostCommand (words : List String) : Command :=
  match words with
  | "/usr/bin/nmcli" :: words => nmcliCommand words
  | ["/bin/sh", "-c", script, _, connection, interface] =>
    if script = ensureScript then .nmEnsure connection interface else .other
  | _ => .other

/-- **The operation that an argv vector asks for.** -/
def interpret (argv : List String) : Command :=
  match argv with
  | "docker" :: "container" :: verb :: words => containerCommand verb words
  | "docker" :: "image" :: "inspect" :: words => .imageInspect (words.getLast?.getD "")
  | "docker" :: "run" :: "--rm" :: "--privileged" :: "--network" :: "host" :: "--entrypoint" ::
      "/usr/sbin/chroot" :: "--volume" :: _ :: _ :: "/host" :: words => hostCommand words
  | "nmcli" :: words => nmcliCommand words
  | _ => .other

/-- A command through the helper is the command of the host. -/
theorem interpret_helper {imageRef : String} {command argv : List String} {writable : Bool}
    (h : helperArgv imageRef command writable = .ok argv) :
    interpret argv = hostCommand command := by
  rw [helperArgv_eq_ok h]
  rfl

example : interpret ["docker", "container", "stop", "--time", "30", "a"] = .stop "a" := by rfl

end DgxSpark
