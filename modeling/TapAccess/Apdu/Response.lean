import TapAccess.Error

/-!
# Response frames

A response is a payload followed by a status word.
-/

namespace TapAccess

structure Response where
  status : StatusWord
  payload : Bytes
  deriving DecidableEq, Repr

namespace Response

def ok (payload : Bytes) : Response := ⟨.known .ok, payload⟩

/-- A response that is a status word only. -/
def ofCode (code : ResponseCode) : Response := ⟨.known code, []⟩

def IsSuccess (r : Response) : Prop := r.status = .known .ok

instance (r : Response) : Decidable r.IsSuccess := inferInstanceAs (Decidable (_ = _))

def encode (r : Response) : Bytes := r.payload ++ r.status.encode

/-- Reads a response; anything of two bytes or more is one. -/
def decode? (bytes : Bytes) : Option Response :=
  if bytes.length < 2 then none
  else
    let cut := bytes.length - 2
    some ⟨.ofValue (UInt16.ofNat (Bytes.toNat (bytes.drop cut))), bytes.take cut⟩

/-- Reads a response; `decode?` with a reason. -/
def parse (bytes : Bytes) : Except ProtocolError Response :=
  match decode? bytes with
  | some response => .ok response
  | none => .error (.malformedApdu "response is shorter than a status word")

end Response

end TapAccess
