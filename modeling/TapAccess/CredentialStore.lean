import TapAccess.Action
import TapAccess.Channel

/-!
# The endpoint's storage

An endpoint keeps the credentials it has enrolled per group of readers, the public key of each group, and
a persistent key per reader. For strangers it keeps dummies, drawn once, so that it can answer them in
the same way as those it knows.
-/

namespace TapAccess

structure Credential where
  keyPair : KeyPair
  deriving DecidableEq

def Credential.publicKey (c : Credential) : PublicKey := c.keyPair.publicKey

/-- A group of readers, with the key that they share. -/
structure ReaderGroup where
  identifier : Identifier
  publicKey : PublicKey
  deriving DecidableEq

/-! ### Tables -/

/-- Pairs of keys and values, each key at most once, in the order in which the keys came. -/
abbrev Table (κ ν : Type) := List (κ × ν)

namespace Table

variable {κ ν : Type} [DecidableEq κ]

def get? (t : Table κ ν) (k : κ) : Option ν := (t.find? fun entry => entry.1 = k).map (·.2)

/-- Gives a key a value in place of the one that it has. -/
def put (t : Table κ ν) (k : κ) (v : ν) : Table κ ν :=
  match t with
  | [] => [(k, v)]
  | entry :: rest => if entry.1 = k then (k, v) :: rest else entry :: put rest k v

end Table

/-! ### The store -/

structure CredentialStore where
  groups : Table Identifier ReaderGroup
  credentials : Table Identifier (List Credential)
  persistentKeys : Table ReaderIdentifier PersistentKey
  dummyCredential : Credential
  dummyGroup : ReaderGroup
  dummyPersistentKey : PersistentKey
  deriving DecidableEq

namespace CredentialStore

/-- An empty store with new dummies. -/
def create (r : RandomSource) : CredentialStore × RandomSource :=
  let (credential, r) := r.keyPair
  let (identifier, r) := r.octets 16
  let (group, r) := r.keyPair
  let (key, r) := r.octets 32
  ({ groups := [], credentials := [], persistentKeys := []
     dummyCredential := ⟨credential⟩
     dummyGroup := ⟨identifier, group.publicKey⟩
     dummyPersistentKey := ⟨key⟩ }, r)

def findCredentials (s : CredentialStore) (group : Identifier) : List Credential :=
  (s.credentials.get? group).getD []

def findGroup (s : CredentialStore) (group : Identifier) : Option ReaderGroup := s.groups.get? group

def findPersistentKey (s : CredentialStore) (reader : ReaderIdentifier) : Option PersistentKey :=
  s.persistentKeys.get? reader

/-- Adds a credential unless one with its public key is there. -/
def addCredential (credentials : List Credential) (c : Credential) : List Credential :=
  if credentials.any fun known => known.publicKey = c.publicKey then credentials else credentials ++ [c]

/-- Enrolls a credential for a group; what was known of the group before is replaced. -/
def enroll (s : CredentialStore) (c : Credential) (group : ReaderGroup) : CredentialStore :=
  { s with
    groups := s.groups.put group.identifier group
    credentials :=
      s.credentials.put group.identifier (addCredential (s.findCredentials group.identifier) c) }

/-- Keeps the key that is shared with a reader; an older one is replaced. -/
def putPersistentKey (s : CredentialStore) (reader : ReaderIdentifier) (key : PersistentKey) :
    CredentialStore :=
  { s with persistentKeys := s.persistentKeys.put reader key }

/-- Keeps the key that is shared with a reader, and logs for which reader. -/
def storePersistentKey {ε : Type} (reader : ReaderIdentifier) (key : PersistentKey) :
    Action ε CredentialStore Unit := do
  Action.debug ("storing persistent key for reader " ++ reader.shown)
  Action.update fun s => s.putPersistentKey reader key

/-- How much is kept, and nothing of what. -/
def summary (s : CredentialStore) : String :=
  let credentials := s.credentials.foldl (fun total entry => total + entry.2.length) 0
  s!"reader groups: {s.groups.length}, endpoints: {credentials}"
    ++ s!", persistent keys: {s.persistentKeys.length}"

end CredentialStore

end TapAccess
