import Msm8974.LocApi.AgpsInterface

/-!
The AGPS servers of loc_eng.cpp: the address buffers of loc_eng_data, what clears and what
replays them, and the server messages that are sent to the adapter. A C string is the list of
its characters up to the terminator; no entry point here is given a NULL one. The resolver is
a parameter.
-/

namespace Msm8974.LocServer
open Msm8974.Agps (GPS_CAPABILITY_MSA GPS_CAPABILITY_MSB)

abbrev CString := List Char

abbrev Port := BitVec 32

/-- An address in host byte order. -/
abbrev Ipv4 := BitVec 32

inductive LocServerType
  | cdmaPde | customPde | mpc | supl
  deriving DecidableEq, Repr

def MAX_URL_LEN : Nat := 256

/-- sizeof supl_host_buf and c2k_host_buf. -/
def hostBufSize : Nat := 101

def strlcpy (src : CString) (size : Nat) : CString := src.take (size - 1)

/-- strncasecmp over the whole of both strings finds no difference. -/
def sameIgnoringCase (a b : CString) : Bool := a.map Char.toLower == b.map Char.toLower

structure AddressBuf where
  host_set : Bool
  host_buf : CString
  port_buf : Port
  deriving DecidableEq

def AddressBuf.zero : AddressBuf := ⟨false, [], 0⟩

inductive ServerMsg
  | setServerUrl (url : CString)
  | setServerIpv4 (ip : Ipv4) (port : Port) (type : LocServerType)
  deriving DecidableEq

def ServerMsg.type : ServerMsg → LocServerType
  | .setServerUrl _ => .supl
  | .setServerIpv4 _ _ type => type

/-- The part of loc_eng_data that the servers are about, and what its adapter was sent. -/
structure LocEngData where
  adapter : Bool
  agps_status_cb : Bool
  supl : AddressBuf
  c2k : AddressBuf
  msgs : List ServerMsg

/-- Before loc_eng_init: a static structure. -/
def LocEngData.zero : LocEngData := ⟨false, false, .zero, .zero, []⟩

/-- The "%s:%u" of snprintf. -/
def hostPort (hostname : CString) (port : Port) : CString :=
  hostname ++ ':' :: Nat.toDigits 10 port.toNat

/-- The url of a server, with its length. -/
def serverUrl (hostname : CString) (port : Port) : CString × Nat :=
  if sameIgnoringCase "NONE".toList hostname then ([], 0)
  else (hostPort hostname port, (hostPort hostname port).length)

namespace LocEngData

def sendMsg (msg : ServerMsg) (s : LocEngData) : LocEngData := { s with msgs := s.msgs ++ [msg] }

/-- loc_eng_set_server. `resolve` is resolve_in_addr with the htonl behind it. -/
def setServer (resolve : CString → Option Ipv4) (type : LocServerType) (hostname : CString)
    (port : Port) (s : LocEngData) : Int × LocEngData :=
  match type with
  | .supl =>
      let (url, len) := serverUrl hostname port
      (0, if MAX_URL_LEN > len then s.sendMsg (.setServerUrl url) else s)
  | .cdmaPde | .customPde | .mpc =>
      match resolve hostname with
      | none => (-2, s)
      | some ip => (0, s.sendMsg (.setServerIpv4 ip port type))

def buffered (hostname : CString) (port : Port) : AddressBuf :=
  ⟨true, strlcpy hostname hostBufSize, port⟩

def setServerProxy (resolve : CString → Option Ipv4) (type : LocServerType) (hostname : CString)
    (port : Port) (s : LocEngData) : Int × LocEngData :=
  let s :=
    match type with
    | .supl => { s with supl := buffered hostname port }
    | .cdmaPde => { s with c2k := buffered hostname port }
    | .customPde | .mpc => s
  if s.adapter then s.setServer resolve type hostname port else (0, s)

/-- loc_eng_init with callbacks and events: the memset, and the new adapter. -/
def locEngInit (s : LocEngData) : LocEngData :=
  if s.adapter then s else { LocEngData.zero with adapter := true, msgs := s.msgs }

/-- Set server addresses which came before init. -/
def agpsReinit (resolve : CString → Option Ipv4) (s : LocEngData) : LocEngData :=
  let s :=
    if s.supl.host_set then (s.setServer resolve .supl s.supl.host_buf s.supl.port_buf).2 else s
  if s.c2k.host_set then (s.setServer resolve .cdmaPde s.c2k.host_buf s.c2k.port_buf).2 else s

/-- loc_eng_agps_init with callbacks, the machines aside. -/
def agpsInit (resolve : CString → Option Ipv4) (CAPABILITIES : BitVec 32) (s : LocEngData) :
    LocEngData :=
  if s.adapter then
    if s.agps_status_cb then s
    else
      let s := { s with agps_status_cb := true }
      if CAPABILITIES &&& GPS_CAPABILITY_MSA ≠ 0 ∨ CAPABILITIES &&& GPS_CAPABILITY_MSB ≠ 0 then
        s.agpsReinit resolve
      else s
  else s

/-- The servers in loc_eng_handle_engine_up. -/
def handleEngineUp (resolve : CString → Option Ipv4) (s : LocEngData) : LocEngData :=
  if s.agps_status_cb then s.agpsReinit resolve else s

end LocEngData

inductive Label
  | setServerProxy (type : LocServerType) (hostname : CString) (port : Port)
  | locEngInit
  | agpsInit
  | engineUp
  deriving DecidableEq

/-- One loc_eng_init and one loc_eng_agps_init; the modem restarts only while there is an
adapter; "host:port" is shorter than MAX_URL_LEN. -/
def step (resolve : CString → Option Ipv4) (CAPABILITIES : BitVec 32) (s : LocEngData) :
    Label → Option LocEngData
  | .setServerProxy type hostname port =>
      if (hostPort hostname port).length < MAX_URL_LEN then
        some (s.setServerProxy resolve type hostname port).2
      else none
  | .locEngInit => if s.adapter then none else some s.locEngInit
  | .agpsInit => if s.agps_status_cb then none else some (s.agpsInit resolve CAPABILITIES)
  | .engineUp => if s.adapter then some (s.handleEngineUp resolve) else none

end Msm8974.LocServer
