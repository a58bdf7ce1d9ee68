import DeviceSample.EsWifiRuns

/-!
Which connection the data that the module is told go to. A command chooses a connection, and the data behind it are for
the one that was chosen last.
-/

namespace DeviceSample.EsWifi

open Base

/-- The connection that a command chooses. -/
def selected (cmd : List Byte) : Option Nat :=
  if (text "P0=").isPrefixOf cmd then some (decimalValue (cmd.drop 3)) else none

/-- The data of messages, each with its connection. -/
def routed : Nat → List Message → List (Nat × List Byte)
  | _, [] => []
  | number, .command cmd :: messages => routed ((selected cmd).getD number) messages
  | number, .data payload :: messages => (number, payload) :: routed number messages

/-- The data go to these connections, whichever was chosen before. -/
def Routes (messages : List Message) (out : List (Nat × List Byte)) : Prop := ∀ number, routed number messages = out

/-- The data that messages carry. -/
def payloads (messages : List Message) : List (List Byte) :=
  messages.filterMap fun m => match m with | .data payload => some payload | .command _ => none

section routes

variable {messages messages' : List Message} {out out' : List (Nat × List Byte)}

theorem payloads_append (messages messages' : List Message) :
    payloads (messages ++ messages') = payloads messages ++ payloads messages' := List.filterMap_append ..

theorem payloads_commands (cmds : List (List Byte)) : payloads (cmds.map .command) = [] := by
  rw [payloads, List.filterMap_map, List.filterMap_eq_nil_iff]
  exact fun _ _ => rfl

theorem payloads_prefix (hfront : messages <+: messages') : payloads messages <+: payloads messages' := by
  obtain ⟨rest, rfl⟩ := hfront
  rw [payloads_append]
  exact List.prefix_append _ _

theorem routed_append (number : Nat) (messages : List Message) :
    ∃ last, ∀ messages', routed number (messages ++ messages') = routed number messages ++ routed last messages' := by
  induction messages generalizing number with
  | nil => exact ⟨number, fun _ => rfl⟩
  | cons m messages ih =>
      cases m with
      | command cmd => exact ih ((selected cmd).getD number)
      | data payload =>
          obtain ⟨last, hlast⟩ := ih number
          exact ⟨last, fun messages' => congrArg (List.cons (number, payload)) (hlast messages')⟩

theorem Routes.append (h : Routes messages out) (h' : Routes messages' out') :
    Routes (messages ++ messages') (out ++ out') := by
  intro number
  obtain ⟨last, hlast⟩ := routed_append number messages
  rw [hlast, h, h']

theorem Routes.of_no_data (h : payloads messages = []) : Routes messages [] := by
  intro number
  induction messages generalizing number with
  | nil => rfl
  | cons m messages ih =>
      cases m with
      | command cmd => exact ih h _
      | data payload => exact absurd h (List.cons_ne_nil _ _)

theorem selected_setting (n : Nat) : selected (setting "P0" n) = some n := by
  have hsetting : setting "P0" n = text "P0=" ++ decimal n := rfl
  rw [selected, hsetting, if_pos (List.isPrefixOf_iff_prefix.mpr (List.prefix_append _ _))]
  exact congrArg some (decimalValue_decimal n)

/-- Data that a call sends are for its connection. -/
theorem Routes.of_send {socket : Byte} {pdata : List Byte} {reqlen : BitVec 16} {timeout : BitVec 32}
    (hfront : messages <+: sendMessages socket pdata reqlen timeout) :
    Routes messages ((payloads messages).map (Prod.mk socket.toNat)) := by
  intro number
  have hmessages : sendMessages socket pdata reqlen timeout = [.command (setting "P0" socket.toNat),
      .command (setting "S2" (wkgTimeOut timeout).toNat), .data (pdata.take (sentLength reqlen))] := rfl
  have hother : selected (setting "S2" (wkgTimeOut timeout).toNat) = none := rfl
  rw [hmessages] at hfront
  simp only [List.prefix_cons_iff, List.prefix_nil] at hfront
  obtain rfl | ⟨_, rfl, rfl | ⟨_, rfl, rfl | ⟨_, rfl, rfl⟩⟩⟩ := hfront
  all_goals simp [routed, payloads, selected_setting, hother]

end routes

end DeviceSample.EsWifi
