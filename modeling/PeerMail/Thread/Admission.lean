import PeerMail.Wire.ThreadBlock

/-!
# Which blocks a thread admits

Before a block is verified, its kind and whether its thread is known decide
which key has to verify it.  An invitation is for a thread that is not known
and has to name this peer; a photo is for a thread that is known; other kinds
are not handled yet.
-/

namespace PeerMail

/-- Why a block is refused before verification. -/
inductive AdmissionError where
  /-- An invitation to a thread that is known. -/
  | threadAlreadyExists
  | invalidInviteTarget
  | threadNotFound
  | unsupported (kind : BlockType)
deriving DecidableEq

/-- The reason in words. -/
def AdmissionError.message : AdmissionError → String
  | .threadAlreadyExists => "thread already exists"
  | .invalidInviteTarget => "invite target is not this peer"
  | .threadNotFound => "thread not found"
  | .unsupported kind => "unsupported block type: " ++ kind.display

/-- How an admitted block is verified. -/
inductive Gate where
  /-- With the key that the invitation carries. -/
  | admitInvite
  /-- With the key of the known thread. -/
  | verifyWithThreadKey
deriving DecidableEq

/-- The gate for a block, for a peer that goes by the name `self`. -/
def gate (kind : BlockType) (threadKnown : Bool) (target : String) (self : PeerId) :
    Except AdmissionError Gate :=
  match kind, threadKnown with
  | .invite, true => .error .threadAlreadyExists
  | .invite, false => if target = self.text then .ok .admitInvite else .error .invalidInviteTarget
  | .photo, true => .ok .verifyWithThreadKey
  | .photo, false => .error .threadNotFound
  | .comment, _ => .error (.unsupported .comment)
  | .like, _ => .error (.unsupported .like)

end PeerMail
