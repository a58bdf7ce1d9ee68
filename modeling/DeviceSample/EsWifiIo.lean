import DeviceSample.BaseBits
import DeviceSample.BaseSearch
import DeviceSample.WifiSocket
import Mathlib.Data.List.DropRight

/-!
The WiFi module on its serial bus. The host sends a command, or data, in words of two bytes, and reads words as
long as the module has some; what it reads goes to one buffer, where the command was as well.
-/

namespace DeviceSample.EsWifi

open Base

/-- `ES_WIFI_Status_t`, as far as it is returned here. -/
inductive Status
  | ok
  | error
  | ioError
  | unexpectedClosedSocket
  | moduleCrash
  deriving DecidableEq, Repr

/-- The negative values that `SPI_WIFI_ReceiveData` returns. -/
inductive IoError
  | spiFailed
  | waitingDrdyFalling
  | stuffingForever
  deriving DecidableEq, Repr

/-- `ES_WIFI_DATA_SIZE`. -/
def esWifiDataSize : Nat := 2000

/-- `"\r\nOK\r\n> "` and `"\r\nERROR"`. -/
def atOkString : List Byte := text "\r\nOK\r\n> "

def atErrorString : List Byte := text "\r\nERROR"

/-- The line break that data begin behind. -/
def crlf : List Byte := text "\r\n"

/-- What the module fills its words up with. -/
def stuffing : Byte := 0x15

/-- The answer of the module: whether it signals data in time, and the words that it gives while it does so. A
transfer can fail. -/
structure Reply where
  ready : Bool
  words : List (Option (Byte × Byte))
  deriving DecidableEq, Repr

/-- One exchange: whether the module takes the command, and the data behind it if there is some, and its answer. -/
structure Exchange where
  taken : Bool
  dataTaken : Bool
  reply : Reply
  deriving DecidableEq, Repr

/-- The loop of `SPI_WIFI_ReceiveData`, with the bytes that it has stored. -/
def receiveLoop (len : Nat) : List Byte → List (Option (Byte × Byte)) → List Byte × Option IoError
  | pData, [] => (pData, none)
  | pData, word :: words =>
      if pData.length < len ∨ len = 0 then
        match word with
        | none => (pData, some .spiFailed)
        | some (first, second) =>
            let pData := pData ++ [first, second]
            if esWifiDataSize ≤ pData.length then (pData, some .stuffingForever) else receiveLoop len pData words
      else (pData, none)

/-- `SPI_WIFI_ReceiveData`. -/
def spiWifiReceiveData (len : Nat) (reply : Reply) : List Byte × Option IoError :=
  if reply.ready then receiveLoop len [] reply.words else ([], some .waitingDrdyFalling)

/-- The words of `SPI_WIFI_SendData`. A last byte that is alone is padded. -/
def spiWifiSendData : List Byte → List (Byte × Byte)
  | [] => []
  | [a] => [(a, ascii '\n')]
  | a :: b :: rest => (a, b) :: spiWifiSendData rest

/-- The bytes of some words. -/
def bytesOfWords (words : List (Byte × Byte)) : List Byte := words.flatMap fun word => [word.1, word.2]

/-- A string in a buffer. -/
def cString (buffer : List Byte) : List Byte := buffer.takeWhile (· ≠ 0)

/-- Bytes that are stored at the beginning of a buffer. -/
def overlay (bytes buffer : List Byte) : List Byte := bytes ++ buffer.drop bytes.length

/-- The bytes of stuffing in front of an answer: `while ((i < len - 2) && (p[i] == 0x15)) i++`. -/
def skipStuffing (bytes : List Byte) : Nat := ((bytes.take (bytes.length - 2)).takeWhile (· = stuffing)).length

/-- `ES_WIFIObject_t`, of which `before` and `behind` are the memory around `CmdData`; and the module, with the
exchanges that are to come and what it was sent. -/
structure Channel where
  before : List Byte
  cmdData : List Byte
  behind : List Byte
  exchanges : List Exchange
  sent : List (List (Byte × Byte))
  deriving DecidableEq, Repr

namespace Channel

/-- `sprintf` to `CmdData`. -/
def print (c : Channel) (command : List Byte) : Channel :=
  { c with cmdData := overlay (command ++ [0]) c.cmdData }

/-- A module that has stopped takes nothing. -/
def exchange (c : Channel) : Exchange := c.exchanges.headD ⟨false, false, ⟨false, []⟩⟩

/-- The exchange goes on to the answer, which is stored to `CmdData`. -/
def receive (c : Channel) (len : Nat) (sent : List (List Byte)) : List Byte × Option IoError × Channel :=
  let (bytes, error) := spiWifiReceiveData len c.exchange.reply
  (bytes, error, { c with
    cmdData := overlay bytes c.cmdData
    exchanges := c.exchanges.tail
    sent := c.sent ++ sent.map spiWifiSendData })

/-- An exchange that ends before there is an answer. -/
def giveUp (c : Channel) (sent : List (List Byte)) : Channel :=
  { c with exchanges := c.exchanges.tail, sent := c.sent ++ sent.map spiWifiSendData }

/-- `AT_ExecuteCommand`, for a command that was printed to `CmdData`. -/
def atExecuteCommand (c : Channel) (cmd : List Byte) : Status × Channel :=
  let c := c.print cmd
  if c.exchange.taken then
    match c.receive esWifiDataSize [cmd] with
    | (bytes, none, c) =>
        if 0 < bytes.length then
          let recvLen := if bytes.length = esWifiDataSize then bytes.length - 1 else bytes.length
          let c := { c with cmdData := c.cmdData.set recvLen 0 }
          if (strstr (cString c.cmdData) atOkString).isSome then (.ok, c)
          else if (strstr (cString c.cmdData) atErrorString).isSome then (.unexpectedClosedSocket, c)
          else (.ioError, c)
        else (.ioError, c)
    | (_, some .stuffingForever, c) => (.moduleCrash, c)
    | (_, some _, c) => (.ioError, c)
  else (.ioError, c.giveUp [])

/-- `AT_RequestSendData`: a command and, behind it, data. -/
def atRequestSendData (c : Channel) (cmd data : List Byte) : Status × Channel :=
  let c := c.print cmd
  if cmd.length % 2 = 1 then (.error, c)
  else if c.exchange.taken then
    if c.exchange.dataTaken then
      match c.receive 0 [cmd, data] with
      | (bytes, none, c) =>
          if 0 < bytes.length then
            let c := { c with cmdData := c.cmdData.set bytes.length 0 }
            if (strstr (cString c.cmdData) atOkString).isSome then (.ok, c)
            else if (strstr (cString c.cmdData) atErrorString).isSome then (.unexpectedClosedSocket, c)
            else (.error, c)
          else (.error, c)
      | (_, some .stuffingForever, c) => (.moduleCrash, c)
      | (_, some _, c) => (.error, c)
    else (.error, c.giveUp [cmd])
  else (.ioError, c.giveUp [])

/-- The part of `AT_RequestReceiveData` behind the first line break, at `start` in `CmdData`. What is compared with
the string at the end of an answer may begin in front of it. -/
def receivedData (c : Channel) (start : Nat) (bytes : List Byte) (reqlen : Nat) : Status × List Byte × Channel :=
  if atOkString.length ≤ bytes.length then
    -- `while (len && p[len - 1] == 0x15) len--`
    let len := (bytes.rdropWhile (· = stuffing)).length
    let c := { c with cmdData := c.cmdData.set (start + len) 0 }
    let window := (c.before ++ c.cmdData.take (start + len)).rtake atOkString.length
    if (strstr (cString window) atOkString).isSome then
      let readData := (len + 2 ^ 16 - atOkString.length) % 2 ^ 16
      let readData := if reqlen < readData then reqlen else readData
      (.ok, (c.cmdData.drop start ++ c.behind).take readData, c)
    else (.unexpectedClosedSocket, [], c)
  else (.ioError, [], c)

/-- `AT_RequestReceiveData`. -/
def atRequestReceiveData (c : Channel) (cmd : List Byte) (reqlen : Nat) : Status × List Byte × Channel :=
  let c := c.print cmd
  if c.exchange.taken then
    match c.receive 0 [cmd] with
    | (bytes, none, c) =>
        if bytes.length < 2 then (.ioError, [], c)
        else
          let i := skipStuffing bytes
          if crlf.isPrefixOf (bytes.drop i) then
            c.receivedData (i + 2) (bytes.drop (i + 2)) reqlen
          else (.ioError, [], c)
    | (_, some .stuffingForever, c) => (.moduleCrash, [], c)
    | (_, some _, c) => (.ioError, [], c)
  else (.ioError, [], c.giveUp [])

end Channel

section words

variable {len : Nat} {pData bytes : List Byte} {words : List (Byte × Byte)}

theorem bytesOfWords_length (words : List (Byte × Byte)) : (bytesOfWords words).length = 2 * words.length :=
  length_flatMap_of_length (fun _ : Byte × Byte => show _ = 2 from rfl) words

/-- What is sent are the data, filled up to whole words. -/
theorem bytesOfWords_send (data : List Byte) :
    bytesOfWords (spiWifiSendData data) = data ++ List.replicate (data.length % 2) (ascii '\n') := by
  induction data using spiWifiSendData.induct with
  | case1 => rfl
  | case2 a => rfl
  | case3 a b rest ih =>
      change [a, b] ++ bytesOfWords (spiWifiSendData rest) = _
      rw [ih, List.length_cons, List.length_cons, show rest.length + 1 + 1 = rest.length + 2 from rfl, Nat.add_mod_right]
      rfl

/-- The loop stores the bytes of the words, as long as they do not fill the buffer. -/
theorem receiveLoop_eq (hlen : len = 0 ∨ esWifiDataSize ≤ len)
    (hsize : pData.length + 2 * words.length < esWifiDataSize) :
    receiveLoop len pData (words.map some) = (pData ++ bytesOfWords words, none) := by
  induction words generalizing pData with
  | nil =>
      rw [List.map_nil, receiveLoop, bytesOfWords, List.flatMap_nil, List.append_nil]
  | cons word words ih =>
      rw [List.length_cons, Nat.mul_succ] at hsize
      have hroom : pData.length < len ∨ len = 0 := hlen.elim Or.inr fun h => Or.inl (by omega)
      have hnext : (pData ++ [word.1, word.2]).length + 2 * words.length < esWifiDataSize := by
        rw [List.length_append, List.length_cons, List.length_cons, List.length_nil]
        omega
      rw [List.map_cons, receiveLoop, if_pos hroom]
      simp only
      rw [if_neg (by omega), ih hnext, List.append_assoc]
      rfl

/-- Without an error, the loop has stored all words. -/
theorem receiveLoop_none {answer : List (Option (Byte × Byte))} (hlen : len = 0 ∨ esWifiDataSize ≤ len)
    (hsize : pData.length < esWifiDataSize) (h : receiveLoop len pData answer = (bytes, none)) :
    ∃ words, answer = words.map some ∧ bytes = pData ++ bytesOfWords words ∧ bytes.length < esWifiDataSize := by
  induction answer generalizing pData with
  | nil =>
      obtain rfl := (Prod.mk.inj h).1
      exact ⟨[], rfl, (List.append_nil _).symm, hsize⟩
  | cons word answer ih =>
      have hroom : pData.length < len ∨ len = 0 := hlen.elim Or.inr fun h => Or.inl (by omega)
      cases word with
      | none =>
          rw [receiveLoop, if_pos hroom] at h
          cases (Prod.mk.inj h).2
      | some word =>
          rw [receiveLoop, if_pos hroom] at h
          simp only at h
          split at h
          · cases (Prod.mk.inj h).2
          · obtain ⟨words, rfl, rfl, hbytes⟩ := ih (Nat.lt_of_not_le ‹_›) h
            exact ⟨word :: words, rfl, List.append_assoc .., hbytes⟩

/-- Whatever the module does, no more is stored than the buffer holds. -/
theorem receiveLoop_length (answer : List (Option (Byte × Byte))) (heven : pData.length % 2 = 0)
    (hsize : pData.length < esWifiDataSize) : (receiveLoop len pData answer).1.length ≤ esWifiDataSize := by
  induction answer generalizing pData with
  | nil => exact le_of_lt hsize
  | cons word answer ih =>
      cases word with
      | none =>
          rw [receiveLoop]
          split <;> exact le_of_lt hsize
      | some word =>
          rw [receiveLoop]
          split
          · simp only
            split
            · simp only [List.length_append, List.length_cons, List.length_nil, esWifiDataSize] at hsize ⊢
              omega
            · refine ih ?_ (Nat.lt_of_not_le ‹_›)
              simp only [List.length_append, List.length_cons, List.length_nil]
              omega
          · exact le_of_lt hsize

end words

/-- The answer is these bytes, and no transfer fails. -/
def Reply.Gives (reply : Reply) (bytes : List Byte) : Prop :=
  reply.ready = true ∧ ∃ words : List (Byte × Byte), reply.words = words.map some ∧ bytes = bytesOfWords words ∧
    bytes.length < esWifiDataSize

theorem spiWifiReceiveData_iff {len : Nat} {reply : Reply} {bytes : List Byte}
    (hlen : len = 0 ∨ esWifiDataSize ≤ len) :
    spiWifiReceiveData len reply = (bytes, none) ↔ reply.Gives bytes := by
  rw [spiWifiReceiveData, Reply.Gives]
  cases reply.ready with
  | false => exact iff_of_false (fun h => by cases (Prod.mk.inj h).2) fun h => Bool.false_ne_true h.1
  | true =>
      rw [if_pos rfl]
      constructor
      · intro h
        obtain ⟨words, hwords, hbytes, hsize⟩ := receiveLoop_none hlen (by decide) h
        exact ⟨rfl, words, hwords, hbytes, hsize⟩
      · rintro ⟨-, words, hwords, rfl, hsize⟩
        rw [bytesOfWords_length] at hsize
        rw [hwords, receiveLoop_eq hlen (by rwa [List.length_nil, Nat.zero_add]), List.nil_append]

theorem Reply.Gives.unique {reply : Reply} {bytes bytes' : List Byte} (h : reply.Gives bytes) (h' : reply.Gives bytes') :
    bytes = bytes' :=
  (Prod.mk.inj (((spiWifiReceiveData_iff (Or.inl rfl)).mpr h).symm.trans ((spiWifiReceiveData_iff (Or.inl rfl)).mpr h'))).1

section answers

variable {c : Channel} {bytes cmd data : List Byte}

/-- A string of a buffer ends at the NUL that is stored behind it. -/
theorem cString_set {buffer : List Byte} (hsize : bytes.length < (overlay bytes buffer).length) :
    cString ((overlay bytes buffer).set bytes.length 0) = cString bytes := by
  have hstored : (overlay bytes buffer).set bytes.length 0 = bytes ++ 0 :: (buffer.drop bytes.length).tail := by
    rw [overlay, List.length_append] at hsize
    rw [overlay, List.set_append_right _ _ le_rfl, Nat.sub_self]
    cases hrest : buffer.drop bytes.length with
    | nil => rw [hrest] at hsize; simp at hsize
    | cons x rest => rfl
  rw [hstored, cString, cString]
  by_cases hnul : (0 : Byte) ∈ bytes
  · have hdrop : bytes.takeWhile (· ≠ 0) ≠ bytes := fun heq => by
      have := List.takeWhile_eq_self_iff.mp heq 0 hnul
      simp at this
    rw [List.takeWhile_append, if_neg fun hlength => hdrop (List.IsPrefix.eq_of_length (List.takeWhile_prefix _) hlength)]
  · have hall : ∀ x ∈ bytes, decide (x ≠ 0) = true := fun x hx => decide_eq_true fun heq => hnul (heq ▸ hx)
    rw [List.takeWhile_append_of_pos hall, List.takeWhile_eq_self_iff.mpr hall]
    simp

/-- `CmdData` has its size. -/
def Channel.Sized (c : Channel) : Prop := c.cmdData.length = esWifiDataSize

/-- What an exchange in which the module got these frames leaves of a channel. -/
structure Channel.Advanced (c next : Channel) (frames : List (List (Byte × Byte))) : Prop where
  sized : next.Sized
  before : next.before = c.before
  exchanges : next.exchanges = c.exchanges.tail
  sent : next.sent = c.sent ++ frames

theorem overlay_length {buffer : List Byte} (hbytes : bytes.length ≤ buffer.length) :
    (overlay bytes buffer).length = buffer.length := by
  rw [overlay, List.length_append, List.length_drop, Nat.add_sub_cancel' hbytes]

theorem Channel.Sized.print (hc : c.Sized) (hcmd : cmd.length < esWifiDataSize) : (c.print cmd).Sized :=
  (overlay_length (by rw [List.length_append, hc]; exact hcmd)).trans hc

theorem Channel.Sized.giveUp (hc : c.Sized) (sent : List (List Byte)) :
    c.Advanced (c.giveUp sent) (sent.map spiWifiSendData) := ⟨hc, rfl, rfl, rfl⟩

theorem Channel.Advanced.set {next : Channel} {frames : List (List (Byte × Byte))} (h : c.Advanced next frames)
    (place : Nat) (x : Byte) : c.Advanced { next with cmdData := next.cmdData.set place x } frames :=
  { h with sized := (List.length_set ..).trans h.sized }

theorem Channel.Advanced.of_print {next : Channel} {frames : List (List (Byte × Byte))}
    (h : (c.print cmd).Advanced next frames) : c.Advanced next frames := ⟨h.sized, h.before, h.exchanges, h.sent⟩

theorem spiWifiReceiveData_length (len : Nat) (reply : Reply) :
    (spiWifiReceiveData len reply).1.length ≤ esWifiDataSize := by
  rw [spiWifiReceiveData]
  split
  · exact receiveLoop_length _ rfl (by decide)
  · exact Nat.zero_le _

/-- An exchange that goes on to the answer of the module. -/
theorem Channel.Sized.receive {error : Option IoError} {len : Nat} (hc : c.Sized) (sent : List (List Byte))
    (hreceive : spiWifiReceiveData len c.exchange.reply = (bytes, error)) :
    ∃ next, c.receive len sent = (bytes, error, next) ∧ c.Advanced next (sent.map spiWifiSendData) ∧
      next.cmdData = overlay bytes c.cmdData := by
  have hlength := spiWifiReceiveData_length len c.exchange.reply
  rw [hreceive] at hlength
  rw [Channel.receive, hreceive]
  exact ⟨_, rfl, ⟨(overlay_length (hc.symm ▸ hlength)).trans hc, rfl, rfl, rfl⟩, rfl⟩

/-- The module takes a command and answers that it is done. -/
def Exchange.Accepted (x : Exchange) : Prop :=
  x.taken = true ∧ ∃ bytes, x.reply.Gives bytes ∧ atOkString <:+: cString bytes

theorem strstr_isSome_iff {s pattern : List Byte} : (strstr s pattern).isSome = true ↔ pattern <:+: s := by
  rw [Option.isSome_iff_ne_none, ne_eq, strstr_eq_none_iff, not_not]

/-- The string that the answer leaves in `CmdData`. -/
theorem cString_answer {next : Channel} (hnext : next.Sized) (hbytes : bytes.length < esWifiDataSize)
    {buffer : List Byte} (hdata : next.cmdData = overlay bytes buffer) :
    cString (next.cmdData.set bytes.length 0) = cString bytes := by
  rw [hdata]
  refine cString_set ?_
  rw [← hdata, hnext]
  exact hbytes

theorem ok_ne_nil {s : List Byte} (h : atOkString <:+: cString s) : 0 < s.length := by
  rcases s with _ | ⟨x, s⟩
  · have := h.length_le
    simp [cString, atOkString, text] at this
  · exact Nat.succ_pos _

/-- A command succeeds exactly if it is taken and the answer has the string that says so. -/
theorem Channel.Sized.atExecuteCommand (hc : c.Sized) (hcmd : cmd.length < esWifiDataSize) :
    c.Advanced (c.atExecuteCommand cmd).2 (if c.exchange.taken then [spiWifiSendData cmd] else []) ∧
      ((c.atExecuteCommand cmd).1 = .ok ↔ c.exchange.Accepted) := by
  have hprint := hc.print hcmd
  rw [Channel.atExecuteCommand]
  simp only
  rw [show (c.print cmd).exchange = c.exchange from rfl]
  cases htaken : c.exchange.taken with
  | false =>
      simp only [Bool.false_eq_true, if_false]
      refine ⟨(hprint.giveUp []).of_print, iff_of_false (by simp) fun h => ?_⟩
      exact Bool.false_ne_true (htaken.symm.trans h.1)
  | true =>
      simp only [if_true]
      rcases hreceive : spiWifiReceiveData esWifiDataSize c.exchange.reply with ⟨bytes, error⟩
      obtain ⟨next, hrun, hnext, hdata⟩ := hprint.receive [cmd] hreceive
      rw [hrun]
      cases error with
      | none =>
          have hgives := (spiWifiReceiveData_iff (Or.inr le_rfl)).mp hreceive
          have hbytes : bytes.length < esWifiDataSize := hgives.2.choose_spec.2.2
          have haccepted : c.exchange.Accepted ↔ atOkString <:+: cString bytes := by
            refine ⟨fun ⟨_, bytes', hgives', hok⟩ => ?_, fun hok => ⟨htaken, bytes, hgives, hok⟩⟩
            rwa [hgives.unique hgives']
          simp only
          rw [if_neg (Nat.ne_of_lt hbytes), cString_answer hnext.sized hbytes hdata, haccepted]
          split
          · simp only [strstr_isSome_iff]
            split
            · exact ⟨(hnext.set _ _).of_print, iff_of_true rfl ‹_›⟩
            · split <;> exact ⟨(hnext.set _ _).of_print, iff_of_false (by simp) ‹_›⟩
          · exact ⟨hnext.of_print, iff_of_false (by simp) fun hok => ‹¬_› (ok_ne_nil hok)⟩
      | some error =>
          have hrefused : ¬c.exchange.Accepted := fun ⟨_, bytes', hgives', _⟩ => by
            have heq := hreceive.symm.trans ((spiWifiReceiveData_iff (Or.inr le_rfl)).mpr hgives')
            cases (Prod.mk.inj heq).2
          cases error <;> exact ⟨hnext.of_print, iff_of_false (by simp) hrefused⟩

/-- The module takes a command and the data behind it, and answers that it is done. `CmdData` has its answer. -/
structure Exchange.DataSent (x : Exchange) (answer : List Byte) : Prop where
  taken : x.taken = true
  dataTaken : x.dataTaken = true
  gives : ∃ bytes, x.reply.Gives bytes ∧ cString bytes = answer
  done : atOkString <:+: answer

/-- A command with data, of which the command has whole words. -/
theorem Channel.Sized.atRequestSendData (hc : c.Sized) (hcmd : cmd.length < esWifiDataSize) (heven : cmd.length % 2 = 0)
    (data : List Byte) :
    c.Advanced (c.atRequestSendData cmd data).2 (if c.exchange.taken then
        if c.exchange.dataTaken then [spiWifiSendData cmd, spiWifiSendData data] else [spiWifiSendData cmd]
      else []) ∧
      ((c.atRequestSendData cmd data).1 = .ok → c.exchange.DataSent (cString (c.atRequestSendData cmd data).2.cmdData)) ∧
      (∀ answer, c.exchange.DataSent answer → (c.atRequestSendData cmd data).1 = .ok ∧
        cString (c.atRequestSendData cmd data).2.cmdData = answer) := by
  have hprint := hc.print hcmd
  rw [Channel.atRequestSendData]
  simp only
  rw [if_neg (by omega), show (c.print cmd).exchange = c.exchange from rfl]
  by_cases htaken : c.exchange.taken = true
  · rw [if_pos htaken, if_pos htaken]
    by_cases hdataTaken : c.exchange.dataTaken = true
    · rw [if_pos hdataTaken, if_pos hdataTaken]
      rcases hreceive : spiWifiReceiveData 0 c.exchange.reply with ⟨bytes, error⟩
      obtain ⟨next, hrun, hnext, hdata⟩ := hprint.receive [cmd, data] hreceive
      rw [hrun]
      cases error with
      | none =>
          have hgives := (spiWifiReceiveData_iff (Or.inl rfl)).mp hreceive
          have hbytes : bytes.length < esWifiDataSize := hgives.2.choose_spec.2.2
          have hanswer := cString_answer hnext.sized hbytes hdata
          have hsent : ∀ answer, c.exchange.DataSent answer → answer = cString bytes ∧ atOkString <:+: cString bytes :=
            fun answer h => by
              obtain ⟨bytes', hgives', rfl⟩ := h.gives
              obtain rfl := hgives.unique hgives'
              exact ⟨rfl, h.done⟩
          simp only
          split
          · simp only [strstr_isSome_iff, hanswer]
            split
            · rename_i hok
              refine ⟨(hnext.set _ _).of_print, fun _ => ?_, fun answer h => ⟨rfl, ?_⟩⟩
              · exact ⟨htaken, hdataTaken, ⟨bytes, hgives, hanswer.symm⟩, hanswer.symm ▸ hok⟩
              · exact hanswer.trans (hsent answer h).1.symm
            · rename_i hok
              split <;> exact ⟨(hnext.set _ _).of_print, fun h => absurd h (by simp),
                fun answer h => absurd (hsent answer h).2 hok⟩
          · rename_i hempty
            exact ⟨hnext.of_print, fun h => absurd h (by simp), fun answer h => absurd (ok_ne_nil (hsent answer h).2) hempty⟩
      | some error =>
          have hrefused : ∀ answer, ¬c.exchange.DataSent answer := fun answer h => by
            obtain ⟨bytes', hgives', -⟩ := h.gives
            have heq := hreceive.symm.trans ((spiWifiReceiveData_iff (Or.inl rfl)).mpr hgives')
            cases (Prod.mk.inj heq).2
          cases error <;>
            exact ⟨hnext.of_print, fun h => absurd h (by simp), fun answer h => absurd h (hrefused answer)⟩
    · rw [if_neg hdataTaken, if_neg hdataTaken]
      exact ⟨(hprint.giveUp [cmd]).of_print, fun h => absurd h (by simp), fun _ h => absurd h.dataTaken hdataTaken⟩
  · rw [if_neg htaken, if_neg htaken]
    exact ⟨(hprint.giveUp []).of_print, fun h => absurd h (by simp), fun _ h => absurd h.taken htaken⟩

end answers

end DeviceSample.EsWifi
