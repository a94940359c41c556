import Msm8974.LocApi.DmnConn

/-!
What loc_api_server_proc makes of a received ctrl_msgbuf. The offsets are those of a 32-bit ARM,
where enums and unsigned longs have four bytes. The handlers get the length but never look at it.
-/

namespace Msm8974.DmnConn

def GPSONE_LOC_API_IF_REQUEST : UInt8 := 0xF0
def GPSONE_LOC_API_IF_RELEASE : UInt8 := 0xF1
def GPSONE_UNBLOCK : UInt8 := 0xF3

def SSID_BUF_SIZE : Nat := 32 + 1

namespace Buffer

def ctrl_type (pmsg : Buffer) : UInt8 := pmsg 12
def type (pmsg : Buffer) : BitVec 32 := pmsg.word 16
def sender_id (pmsg : Buffer) : BitVec 32 := pmsg.word 20
def ipv4_addr (pmsg : Buffer) : BitVec 32 := pmsg.word 24
def ipv6_addr (pmsg : Buffer) : List UInt8 := (List.range' 28 16).map pmsg

/-- The text that strlcpy copies from `pos` into SSID_BUF_SIZE bytes. -/
def strlcpy (pmsg : Buffer) (pos : Nat) : List UInt8 :=
  ((List.range' pos (SSID_BUF_SIZE - 1)).map pmsg).takeWhile (· ≠ 0)

def ssid (pmsg : Buffer) : List UInt8 := pmsg.strlcpy 44
def password (pmsg : Buffer) : List UInt8 := pmsg.strlcpy 77

end Buffer

inductive AGpsExtType where
  | supl | wifi | any
deriving DecidableEq

/-- The senders of requests for Wifi. -/
inductive WifiSender where
  | quipc | msapm | msapu
deriving DecidableEq

/-- What the handlers put into the queue of the adapter. -/
inductive ReqRel where
  | wifi (mType : AGpsExtType) (mSenderId : WifiSender) (mSSID mPassword : List UInt8)
      (mIsReq : Bool)
  | bit (mType : AGpsExtType) (mIPv4Addr : BitVec 32) (mIPv6Addr : List UInt8) (mIsReq : Bool)
deriving DecidableEq

inductive Outcome where
  | sent (msg : ReqRel)
  /-- A handler returns this result without a message. -/
  | rejected (result : Int)
  | unblocked
  | unsupported (ctrl_type : UInt8)
deriving DecidableEq

/-- The first switch of both handlers. -/
def ifRequestType (type : BitVec 32) : Option AGpsExtType :=
  if type = 0 then some .supl
  else if type = 1 then some .wifi
  else if type = 2 then some .any
  else none

/-- The handlers differ in the last argument of the messages. -/
def ifHandler (isReq : Bool) (pmsg : Buffer) : Outcome :=
  match ifRequestType pmsg.type with
  | none => .rejected (-1)
  | some type =>
      if pmsg.sender_id = 0 then .sent (.wifi type .quipc pmsg.ssid pmsg.password isReq)
      else if pmsg.sender_id = 1 then .sent (.wifi type .msapm pmsg.ssid pmsg.password isReq)
      else if pmsg.sender_id = 2 then .sent (.wifi type .msapu pmsg.ssid pmsg.password isReq)
      else if pmsg.sender_id = 3 then .sent (.bit type pmsg.ipv4_addr pmsg.ipv6_addr isReq)
      else .rejected (-1)

/-- `loc_api_handle` is whether there is one. -/
def locApiServerIfRequestHandler (loc_api_handle : Bool) (pmsg : Buffer) : Outcome :=
  if loc_api_handle then ifHandler true pmsg else .rejected 1

/-- Without a handle the message is created all the same. -/
def locApiServerIfReleaseHandler (pmsg : Buffer) : Outcome := ifHandler false pmsg

/-- The switch of loc_api_server_proc. -/
def locApiServerProc (loc_api_handle : Bool) (p_cmsgbuf : Buffer) : Outcome :=
  if p_cmsgbuf.ctrl_type = GPSONE_LOC_API_IF_REQUEST then
    locApiServerIfRequestHandler loc_api_handle p_cmsgbuf
  else if p_cmsgbuf.ctrl_type = GPSONE_LOC_API_IF_RELEASE then
    locApiServerIfReleaseHandler p_cmsgbuf
  else if p_cmsgbuf.ctrl_type = GPSONE_UNBLOCK then .unblocked
  else .unsupported p_cmsgbuf.ctrl_type

end Msm8974.DmnConn
