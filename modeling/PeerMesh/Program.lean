import PeerMesh.Log.Filter
import PeerMesh.Tcp.Node

/-! The program around one node: what it answers to arguments, and what it logs about the events of
its node. -/

namespace PeerMesh.Program
set_option autoImplicit false
open Log (Record Value)

def name : String := "zre-node"

def version : String := "0.1.0"

def versionLine : String := name ++ " " ++ version

/-- Whether the arguments ask for the version. All other arguments are ignored. -/
def asksVersion (args : List String) : Bool := args.any fun arg => arg = "--version" || arg = "-V"

def target : String := "zre_node"

def runningRecord (id : PeerId) (name endpoint : String) : Record :=
  ⟨.info, target, "running",
    [("uuid", .plain id.text), ("name", .quoted name), ("endpoint", .quoted endpoint)]⟩

def optional (text : Option String) : Value :=
  .plain (match text with
    | some s => "Some(" ++ s ++ ")"
    | none => "None")

def eventRecord (e : Event) : Record :=
  match e with
  | .enter peer name _ endpoint =>
    ⟨.info, target, e.kind,
      [("peer", .plain peer.text), ("name", .plain name), ("endpoint", .plain endpoint)]⟩
  | .whisper peer _ content =>
    ⟨.info, target, e.kind, [("peer", .plain peer.text), ("frames", .number content.length)]⟩
  | .shout peer _ group content =>
    ⟨.info, target, e.kind,
      [("peer", .plain peer.text), ("group", .plain group), ("frames", .number content.length)]⟩
  | _ =>
    ⟨.info, target, e.kind,
      [("peer", optional (e.peer?.map fun id => "PeerId(" ++ id.text ++ ")")),
        ("group", optional (e.group?.map Text.quoted))]⟩

def takeRecords (n : TcpNode) : List Record × TcpNode :=
  match n.actor? with
  | none => ([], n)
  | some a =>
    (a.takeNotes.1.map Note.record ++ a.events.map eventRecord,
      n.editActor fun a => { a.takeNotes.2 with events := [] })

/-- Lists the causes of a failure, with numbers if there are several. -/
def causeLines : List String → List String
  | [cause] => ["    " ++ cause]
  | causes => causes.mapIdx fun i cause => "    " ++ toString i ++ ": " ++ cause

def startFailure (e : NodeError) : String :=
  "\n".intercalate (["Error: cannot start node", "", "Caused by:"] ++ causeLines e.causes) ++ "\n"

def usualFilter : Log.Filter := .atLevel .info

/-- What is logged under a setting; a setting that makes no sense counts as none. -/
def filterOf (setting : Option String) : Log.Filter :=
  (setting.bind Log.Filter.parse?).getD usualFilter

end PeerMesh.Program
