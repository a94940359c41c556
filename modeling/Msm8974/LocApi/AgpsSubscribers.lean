import Msm8974.LocApi.AgpsNotification

/-!
The four subclasses of Subscriber: what they compare, and what they tell their clients. A pointer
to any of them is cast to BITSubscriber where a BITSubscriber compares, so that each object has 16
bytes where the address of a BITSubscriber is. What the clients are told is recorded.
-/

namespace Msm8974.Agps

def INADDR_NONE : BitVec 32 := 0xFFFFFFFF

def GPSONE_LOC_API_IF_REQUEST_SUCCESS : Int := 0xF0
def GPSONE_LOC_API_IF_RELEASE_SUCCESS : Int := 0xF1
def GPSONE_LOC_API_IF_FAILURE : Int := 0xF2

def LOC_ENG_IF_REQUEST_SENDER_ID_GPSONE_DAEMON : BitVec 32 := 3

inductive ClientKind
  | BITSubscriber
  | ATLSubscriber (mBackwardCompatibleMode : Bool)
  | WIFISubscriber
  | DSSubscriber
  deriving DecidableEq

structure Client where
  kind : ClientKind
  ID : BitVec 32
  /-- The address of a BITSubscriber; what happens to lie there in any other object. -/
  mIPv6Addr : Vector UInt8 16
  deriving DecidableEq

/-- `strncmp(s1, s2, n) == 0` -/
def strncmpZero : Nat → List UInt8 → List UInt8 → Bool
  | n + 1, c :: s1, d :: s2 => if c = d then c = 0 || strncmpZero n s1 s2 else false
  | _, _, _ => true

namespace Client

/-- `equals` of the class of the first, on a pointer to any Subscriber. -/
def equals (c s : Client) : Bool :=
  match c.kind with
  | .BITSubscriber =>
      c.ID = s.ID &&
        (INADDR_NONE ≠ c.ID || strncmpZero 16 c.mIPv6Addr.toList s.mIPv6Addr.toList)
  | .ATLSubscriber _ | .WIFISubscriber | .DSSubscriber => c.ID = s.ID

def waitForCloseComplete (c : Client) : Bool :=
  match c.kind with
  | .WIFISubscriber | .DSSubscriber => true
  | .BITSubscriber | .ATLSubscriber _ => false

instance : SubscriberKind Client where
  equals := equals
  waitForCloseComplete := waitForCloseComplete

end Client

inductive Reply
  | dataConn (sender_id : BitVec 32) (status : Int)
  | atlOpenStatus (handle : BitVec 32) (is_succ : Int) (apn : Option String) (bearer agpsType : Int)
  | atlCloseStatus (handle : BitVec 32) (is_succ : Int)
  | informStatus (status : AgpsRsrcStatus) (ID : BitVec 32)
  | agpsCb (action : AGpsStatusValue)
  deriving DecidableEq

/-- The state machine as its subscribers see it, and what was sent. -/
structure Replies where
  mType : Int
  mAPN : Option String
  mBearer : Int
  sent : List Reply

namespace Client

/-- The switch of BITSubscriber::notifyRsrcStatus; the default branch is `none`. -/
def replyBIT (status : AgpsRsrcStatus) : Option (List Reply) :=
  let daemon := LOC_ENG_IF_REQUEST_SENDER_ID_GPSONE_DAEMON
  match status with
  | .unsubscribe | .released => some [.dataConn daemon GPSONE_LOC_API_IF_RELEASE_SUCCESS]
  | .denied => some [.dataConn daemon GPSONE_LOC_API_IF_FAILURE]
  | .granted => some [.dataConn daemon GPSONE_LOC_API_IF_REQUEST_SUCCESS]
  | .subscribe | .statusMax => none

def replyATL (ID : BitVec 32) (mBackwardCompatibleMode : Bool) (w : Replies)
    (status : AgpsRsrcStatus) : Option (List Reply) :=
  -- AGPS_TYPE_INVALID stands for a client that knows no types
  let type := if mBackwardCompatibleMode then -1 else w.mType
  match status with
  | .unsubscribe | .released => some [.atlCloseStatus ID 1]
  | .denied => some [.atlOpenStatus ID 0 w.mAPN w.mBearer type]
  | .granted => some [.atlOpenStatus ID 1 w.mAPN w.mBearer type]
  | .subscribe | .statusMax => none

def replyWIFI (senderId : BitVec 32) (status : AgpsRsrcStatus) : Option (List Reply) :=
  match status with
  | .unsubscribe => some []
  | .released => some [.dataConn senderId GPSONE_LOC_API_IF_RELEASE_SUCCESS]
  | .denied => some [.dataConn senderId GPSONE_LOC_API_IF_FAILURE]
  | .granted => some [.dataConn senderId GPSONE_LOC_API_IF_REQUEST_SUCCESS]
  | .subscribe | .statusMax => none

def replyDS (ID : BitVec 32) (status : AgpsRsrcStatus) : Option (List Reply) :=
  match status with
  | .unsubscribe | .released | .denied | .granted => some [.informStatus status ID]
  | .subscribe | .statusMax => none

/-- The switch of each class; the ID of a WIFISubscriber is its senderId. -/
def reply (c : Client) (status : AgpsRsrcStatus) (w : Replies) : Option (List Reply) :=
  match c.kind with
  | .BITSubscriber => replyBIT status
  | .ATLSubscriber mBackwardCompatibleMode => replyATL c.ID mBackwardCompatibleMode w status
  | .WIFISubscriber => replyWIFI c.ID status
  | .DSSubscriber => replyDS c.ID status

def notified (c : Client) (status : AgpsRsrcStatus) (w : Replies) : Replies :=
  { w with sent := w.sent ++ (c.reply status w).getD [] }

instance : AgpsVirtual Client Replies where
  notifyRsrcStatus := notified
  setInactive c w :=
    match c.kind with
    | .DSSubscriber => { w with sent := w.sent ++ [.informStatus .unsubscribe c.ID] }
    | .BITSubscriber | .ATLSubscriber _ | .WIFISubscriber => w
  sendRsrcRequest action s w :=
    if s.isNone == decide (action = .releaseAgpsDataConn) then
      (0, { w with sent := w.sent ++ [.agpsCb action] })
    else (0, w)
  trace _ _ w := w

end Client
end Msm8974.Agps
