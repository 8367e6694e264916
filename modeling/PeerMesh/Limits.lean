import PeerMesh.Wire

/-! What a local command may add to a node. A node's name, groups and headers all go out in its
HELLO, so a command is refused as soon as the HELLO could no longer be encoded. -/

namespace PeerMesh
set_option autoImplicit false

inductive CommandError
  | headerKey (key : String)
  | headerTooLong (key : String) (bytes : Nat)
  | tooManyHeaders
  | groupNameTooLong (bytes : Nat)
  | tooManyGroups
  | nameTooLong (bytes : Nat)
  deriving DecidableEq

def CommandError.message : CommandError → String
  | headerKey key => (Wire.EncodeError.headerKey key).message
  | headerTooLong key bytes =>
    "header " ++ Text.quoted key ++ " encodes to " ++ toString bytes ++ " bytes, limit is " ++
      toString Wire.limit
  | tooManyHeaders => "already " ++ toString Wire.limit ++ " headers"
  | groupNameTooLong bytes =>
    "group name is " ++ toString bytes ++ " bytes, limit is " ++ toString Wire.limit
  | tooManyGroups => "already in " ++ toString Wire.limit ++ " groups"
  | nameTooLong bytes =>
    "node name is " ++ toString bytes ++ " bytes, limit is " ++ toString Wire.limit

/-- Whether `key=value` may join `headers`. Replacing a header needs no room for another one. -/
def checkHeader (headers : Headers) (key value : String) : Except CommandError Unit :=
  let bytes := key.utf8ByteSize + 1 + value.utf8ByteSize
  if '=' ∈ key.toList then .error (.headerKey key)
  else if bytes > Wire.limit then .error (.headerTooLong key bytes)
  else if !headers.contains key && headers.size ≥ Wire.limit then .error .tooManyHeaders
  else .ok ()

/-- Whether a node in `joined` other groups may join `group`. -/
def checkGroup (joined : Nat) (group : String) : Except CommandError Unit :=
  if group.utf8ByteSize > Wire.limit then .error (.groupNameTooLong group.utf8ByteSize)
  else if joined ≥ Wire.limit then .error .tooManyGroups
  else .ok ()

def checkName (name : String) : Except CommandError Unit :=
  if name.utf8ByteSize > Wire.limit then .error (.nameTooLong name.utf8ByteSize) else .ok ()

end PeerMesh
