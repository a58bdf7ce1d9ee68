import DeviceSample.EsWifiAnswer
import DeviceSample.BaseNumber

/-!
The calls of the WiFi module. Each is a list of commands, which ends at the first one that fails, and the calls that
send or receive have data at their end.
-/

namespace DeviceSample.EsWifi

open Base

/-- `ES_WIFI_ConnType_t`, as far as connections are opened with it. -/
inductive ConnType
  | tcp
  | udp
  | udpLite
  | tcpSsl
  deriving DecidableEq, Repr

/-- The number that is printed for a kind of connection. -/
def ConnType.number : ConnType → Nat
  | .tcp => 0
  | .udp => 1
  | .udpLite => 2
  | .tcpSsl => 3

/-- `ES_WIFI_Conn_t`. -/
structure Conn where
  type : ConnType
  number : Byte
  remotePort : BitVec 16
  localPort : BitVec 16
  remoteIp : Byte × Byte × Byte × Byte
  deriving DecidableEq, Repr

/-- A line, which a carriage return ends. -/
def line (s : List Byte) : List Byte := s ++ text "\r"

/-- `"%s=%d"`. -/
def setting (name : String) (value : Nat) : List Byte := text name ++ text "=" ++ decimal value

/-- `"%04d"`. -/
def zeroPadded (width n : Nat) : List Byte := List.replicate (width - (decimal n).length) (ascii '0') ++ decimal n

/-- `"P3=%d.%d.%d.%d"`. -/
def remoteIpSetting : Byte × Byte × Byte × Byte → List Byte
  | (a, b, c, d) => setting "P3" a.toNat ++ text "." ++ decimal b.toNat ++ text "." ++ decimal c.toNat ++ text "." ++
      decimal d.toNat

/-- `NET_DEFAULT_NOBLOCKING_READ_TIMEOUT` or `NET_DEFAULT_NOBLOCKING_WRITE_TIMEOUT` stands for a timeout of zero. -/
def wkgTimeOut (timeout : BitVec 32) : BitVec 32 := if timeout = 0 then 1 else timeout

/-- The commands of `ES_WIFI_StartClientConnection`. -/
def startCommands (conn : Conn) : List (List Byte) :=
  [setting "P0" conn.number.toNat, setting "P1" conn.type.number, setting "P2" conn.localPort.toNat,
    setting "P4" conn.remotePort.toNat, remoteIpSetting conn.remoteIp] ++
    (if conn.type = .tcpSsl then [setting "P9" 2] else []) ++ [setting "P6" 1]

/-- The commands of `ES_WIFI_StopClientConnection`. -/
def stopCommands (number : Byte) : List (List Byte) := [setting "P0" number.toNat, setting "P6" 0]

/-- The commands of `ES_WIFI_SendData` in front of that with the data. -/
def sendCommands (socket : Byte) (timeout : BitVec 32) : List (List Byte) :=
  [setting "P0" socket.toNat, setting "S2" (wkgTimeOut timeout).toNat]

/-- The command that data follow. -/
def sendHeader (len : Nat) : List Byte := text "S3=" ++ zeroPadded 4 len

/-- `if(Reqlen >= ES_WIFI_PAYLOAD_SIZE ) Reqlen= ES_WIFI_PAYLOAD_SIZE`. -/
def sentLength (reqlen : BitVec 16) : Nat :=
  if Wifi.esWifiPayloadSize ≤ reqlen.toNat then Wifi.esWifiPayloadSize else reqlen.toNat

/-- The commands of `ES_WIFI_ReceiveData` in front of the request for data. -/
def receiveCommands (socket : Byte) (reqlen : BitVec 16) (timeout : BitVec 32) : List (List Byte) :=
  [setting "P0" socket.toNat, setting "R1" reqlen.toNat, setting "R2" (wkgTimeOut timeout).toNat]

namespace Channel

/-- Commands, up to the first one that fails. -/
def commands (c : Channel) : List (List Byte) → Status × Channel
  | [] => (.ok, c)
  | cmd :: cmds =>
      let r := c.atExecuteCommand (line cmd)
      if r.1 = .ok then r.2.commands cmds else r

/-- `ES_WIFI_StartClientConnection`. -/
def esWifiStartClientConnection (c : Channel) (conn : Conn) : Status × Channel :=
  if (conn.type = .tcp ∨ conn.type = .tcpSsl) ∧ conn.remotePort = 0 then (.error, c) else c.commands (startCommands conn)

/-- `ES_WIFI_StopClientConnection`. -/
def esWifiStopClientConnection (c : Channel) (number : Byte) : Status × Channel := c.commands (stopCommands number)

/-- What `ES_WIFI_SendData` makes of the answer to its data. -/
def sendStatus (r : Status × Channel) : Status :=
  if r.1 = .ok ∧ (strstr (cString r.2.cmdData) (text "-1\r\n")).isSome then .error else r.1

/-- `ES_WIFI_SendData`, with what it stores to `SentLen`. -/
def esWifiSendData (c : Channel) (socket : Byte) (pdata : List Byte) (reqlen : BitVec 16) (timeout : BitVec 32) :
    Status × Nat × Channel :=
  let reqlen := sentLength reqlen
  let r := c.commands (sendCommands socket timeout)
  let r := if r.1 = .ok then r.2.atRequestSendData (line (sendHeader reqlen)) (pdata.take reqlen) else r
  (sendStatus r, if sendStatus r = .error then 0 else reqlen, r.2)

/-- `ES_WIFI_ReceiveData`, with the data that it stores. -/
def esWifiReceiveData (c : Channel) (socket : Byte) (reqlen : BitVec 16) (timeout : BitVec 32) :
    Status × List Byte × Channel :=
  if reqlen.toNat ≤ Wifi.esWifiPayloadSize then
    let r := c.commands (receiveCommands socket reqlen timeout)
    if r.1 = .ok then r.2.atRequestReceiveData (line (text "R0")) reqlen.toNat else (r.1, [], r.2)
  else (.error, [], c)

end Channel

/-- What the module is told: a command, or to send data. -/
inductive Message
  | command (cmd : List Byte)
  | data (payload : List Byte)
  deriving DecidableEq, Repr

/-- The frames of a message. -/
def Message.frames : Message → List (List (Byte × Byte))
  | .command cmd => [spiWifiSendData (line cmd)]
  | .data payload => [spiWifiSendData (line (sendHeader payload.length)), spiWifiSendData payload]

/-- The line at the beginning of a frame. -/
def lineOf (frame : List (Byte × Byte)) : List Byte := (bytesOfWords frame).takeWhile (· ≠ ascii '\r')

/-- How many data follow a command. -/
def dataLength (cmd : List Byte) : Option Nat :=
  if (text "S3=").isPrefixOf cmd then some (decimalValue (cmd.drop 3)) else none

/-- How the module reads frames: one that says that data follow has its data in the next one. -/
def readFrames : List (List (Byte × Byte)) → List Message
  | [] => []
  | [frame] => [.command (lineOf frame)]
  | frame :: payload :: frames =>
      match dataLength (lineOf frame) with
      | some n => .data ((bytesOfWords payload).take n) :: readFrames frames
      | none => .command (lineOf frame) :: readFrames (payload :: frames)

section lines

variable {cmd payload : List Byte} {n : Nat} {messages : List Message}

theorem decimalValue_zeros (k : Nat) (t : List Byte) : decimalValue (List.replicate k (ascii '0') ++ t) = decimalValue t := by
  induction k with
  | zero => rfl
  | succ k ih => exact ih

theorem decimalValue_zeroPadded (width n : Nat) : decimalValue (zeroPadded width n) = n := by
  rw [zeroPadded, decimalValue_zeros, decimalValue_decimal]

theorem decimal_length_le {k : Nat} (hn : n < 10 ^ (k + 1)) : (decimal n).length ≤ k + 1 := by
  induction k generalizing n with
  | zero => exact le_of_eq (decimal_length_of_lt hn)
  | succ k ih =>
      rw [decimal_eq]
      split
      · exact Nat.le_add_left _ _
      · rw [List.length_append, List.length_singleton]
        exact Nat.succ_le_succ (ih (Nat.div_lt_of_lt_mul (by rwa [Nat.pow_succ'] at hn)))

/-- The command in front of data has whole words. -/
theorem sendHeader_length (hn : n < 10 ^ 4) : (line (sendHeader n)).length = 8 := by
  have hlength := decimal_length_le hn
  simp only [line, sendHeader, zeroPadded, List.length_append, List.length_replicate]
  change 3 + (4 - (decimal n).length + (decimal n).length) + 1 = 8
  omega

theorem cr_not_mem_decimal (n : Nat) : ascii '\r' ∉ decimal n := fun h => by
  have := isDigit_of_mem_decimal h
  revert this
  decide

/-- A command that fits `CmdData`, is one line, and is not taken for one that data follow. -/
structure Plain (cmd : List Byte) : Prop where
  fits : (line cmd).length < esWifiDataSize
  oneLine : ascii '\r' ∉ cmd
  alone : ¬text "S3=" <+: cmd

theorem plain_setting {name : String} (hname : (text name).length = 2) (hother : text name ≠ text "S3")
    (hcr : ascii '\r' ∉ text name) (hn : n < 10 ^ 10) : Plain (setting name n) where
  fits := by
    have hlength := decimal_length_le hn
    simp only [line, setting, List.length_append, hname]
    change 2 + 1 + (decimal n).length + 1 < 2000
    omega
  oneLine := by
    simp only [setting, List.mem_append, not_or]
    exact ⟨⟨hcr, by decide⟩, cr_not_mem_decimal n⟩
  alone h := by
    refine hother ?_
    rw [setting, List.append_assoc] at h
    have htake := List.prefix_iff_eq_take.mp ((List.take_prefix 2 (text "S3=")).trans h)
    rw [show (List.take 2 (text "S3=")).length = 2 from rfl, List.take_left' hname] at htake
    exact htake.symm

theorem lineOf_send (hcr : ascii '\r' ∉ cmd) : lineOf (spiWifiSendData (line cmd)) = cmd := by
  have hall : ∀ x ∈ cmd, decide (x ≠ ascii '\r') = true := fun x hx => decide_eq_true fun heq => hcr (heq ▸ hx)
  rw [lineOf, bytesOfWords_send, line, List.append_assoc, List.takeWhile_append_of_pos hall]
  exact List.append_nil cmd

/-- Messages that can be read back. -/
def Message.Readable : Message → Prop
  | .command cmd => Plain cmd
  | .data _ => True

theorem dataLength_sendHeader (n : Nat) : dataLength (sendHeader n) = some n := by
  rw [dataLength, sendHeader, if_pos (List.isPrefixOf_iff_prefix.mpr (List.prefix_append _ _))]
  exact congrArg some (decimalValue_zeroPadded 4 n)

theorem dataLength_plain (hcmd : Plain cmd) : dataLength cmd = none :=
  if_neg fun h => hcmd.alone (List.isPrefixOf_iff_prefix.mp h)

theorem cr_not_mem_sendHeader (n : Nat) : ascii '\r' ∉ sendHeader n := by
  simp only [sendHeader, zeroPadded, List.mem_append, not_or]
  exact ⟨by decide, fun h => absurd (List.eq_of_mem_replicate h) (by decide), cr_not_mem_decimal n⟩

/-- Frames are read back as the messages that they are of. -/
theorem readFrames_frames (h : ∀ m ∈ messages, m.Readable) : readFrames (messages.flatMap Message.frames) = messages := by
  induction messages with
  | nil => rfl
  | cons m messages ih =>
      have hrest := ih fun m' hm' => h m' (List.mem_cons_of_mem m hm')
      have hm := h m List.mem_cons_self
      rw [List.flatMap_cons]
      cases m with
      | command cmd =>
          have hplain : Plain cmd := hm
          change readFrames (spiWifiSendData (line cmd) :: messages.flatMap Message.frames) = _
          cases hframes : messages.flatMap Message.frames with
          | nil =>
              rw [hframes] at hrest
              rw [readFrames, lineOf_send hplain.oneLine, ← hrest]
              rfl
          | cons payload frames =>
              rw [hframes] at hrest
              rw [readFrames, lineOf_send hplain.oneLine, dataLength_plain hplain, ← hrest]
      | data payload =>
          change readFrames (spiWifiSendData (line (sendHeader payload.length)) :: spiWifiSendData payload ::
            messages.flatMap Message.frames) = _
          rw [readFrames, lineOf_send (cr_not_mem_sendHeader _), dataLength_sendHeader, bytesOfWords_send]
          simp only
          rw [List.take_left, hrest]

end lines

end DeviceSample.EsWifi
