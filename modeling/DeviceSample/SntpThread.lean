import DeviceSample.BaseProtocol
import DeviceSample.Sdk

/-!
The thread of the SNTP client: it creates the client, runs it, and then goes round an endless loop
that restarts the client when its server is silent. The calls on the client are kept in order.
-/

namespace DeviceSample.Sntp

open Base

/-- The client. A failed `run_unicast` leaves it stopped. -/
inductive ClientState
  | absent
  | stopped
  | running
  | deleted
  deriving DecidableEq, Repr

/-- The `nx_sntp_client_*` calls on the client, with what they return where it decides the state. -/
inductive SntpCall
  | create (status : Status)
  | setLocalTime
  | setTimeUpdateNotify
  | initializeUnicast
  | runUnicast (status : Status)
  | receivingUpdates
  | getLocalTime
  | displayDateTime
  | stop
  | delete
  deriving DecidableEq, Repr

def SntpCall.effect (s : ClientState) : SntpCall → ClientState
  | .create status => if status = .success then .stopped else s
  | .runUnicast status => if status = .success then .running else s
  | .stop => .stopped
  | .delete => .deleted
  | .setLocalTime => s
  | .setTimeUpdateNotify => s
  | .initializeUnicast => s
  | .receivingUpdates => s
  | .getLocalTime => s
  | .displayDateTime => s

/-- The two calls that need a client that is created and stopped. -/
def SntpCall.starts : SntpCall → Bool
  | .initializeUnicast => true
  | .runUnicast _ => true
  | .create _ => false
  | .setLocalTime => false
  | .setTimeUpdateNotify => false
  | .receivingUpdates => false
  | .getLocalTime => false
  | .displayDateTime => false
  | .stop => false
  | .delete => false

/-- Nothing is called on a deleted client, and it is started only while it is stopped. -/
def sntpProtocol : Protocol ClientState SntpCall where
  Allowed s call := s ≠ .deleted ∧ (call.starts = true → s = .stopped)
  next s call := call.effect s

instance (s : ClientState) (call : SntpCall) : Decidable (sntpProtocol.Allowed s call) :=
  inferInstanceAs (Decidable (_ ∧ _))

/-- What the calls of `sntp_client_run` return. -/
structure RunReplies where
  dnsHostByNameGet : Status
  initializeUnicast : Status
  runUnicast : Status
  deriving DecidableEq, Repr

/-- The status of a function and its calls on the client. -/
structure Done where
  status : Status
  calls : List SntpCall
  deriving DecidableEq, Repr

/-- `sntp_client_run`. -/
def sntpClientRun (r : RunReplies) : Done :=
  if r.dnsHostByNameGet ≠ .success then ⟨r.dnsHostByNameGet, []⟩
  else if r.initializeUnicast ≠ .success then ⟨r.initializeUnicast, [.initializeUnicast, .delete]⟩
  else if r.runUnicast ≠ .success then
    ⟨r.runUnicast, [.initializeUnicast, .runUnicast r.runUnicast, .stop, .delete]⟩
  else ⟨.success, [.initializeUnicast, .runUnicast .success]⟩

/-- `set_sntp_time`. -/
def setSntpTime (getLocalTime : Status) : List SntpCall :=
  if getLocalTime ≠ .success then [.getLocalTime] else [.getLocalTime, .displayDateTime]

/-- `SNTP_UPDATE_EVENT`. -/
def sntpUpdateEvent : BitVec 32 := 1

/-- What the calls of one round of the loop return. A timeout of the wait stores no events. -/
structure Round where
  eventFlagsGet : Option (BitVec 32)
  receivingUpdates : Status
  serverStatus : Bool
  run : RunReplies
  getLocalTime : Status
  deriving DecidableEq, Repr

/-- The thread in its loop: its local `events` and its calls on the client. -/
structure Thread where
  events : BitVec 32
  calls : List SntpCall
  deriving DecidableEq, Repr

/-- One round of the loop in `sntp_thread_entry`. -/
def Thread.round (t : Thread) (r : Round) : Thread :=
  let events := r.eventFlagsGet.getD t.events
  if r.receivingUpdates ≠ .success then ⟨events, t.calls ++ [.receivingUpdates]⟩
  else if r.serverStatus = false then
    -- the status of the restart is not looked at
    ⟨events, t.calls ++ .receivingUpdates :: .stop :: (sntpClientRun r.run).calls⟩
  else if events = sntpUpdateEvent then
    ⟨0, t.calls ++ .receivingUpdates :: setSntpTime r.getLocalTime⟩
  else ⟨events, t.calls ++ [.receivingUpdates]⟩

/-- What the calls in front of the loop return. -/
structure SetupReplies where
  create : Status
  setLocalTime : Status
  setTimeUpdateNotify : Status
  run : RunReplies
  deriving DecidableEq, Repr

/-- The part of `sntp_thread_entry` in front of its loop. -/
def setup (r : SetupReplies) : Done :=
  if r.create ≠ .success then ⟨r.create, [.create r.create]⟩
  else if r.setLocalTime ≠ .success then
    ⟨r.setLocalTime, [.create .success, .setLocalTime, .delete]⟩
  else if r.setTimeUpdateNotify ≠ .success then
    ⟨r.setTimeUpdateNotify, [.create .success, .setLocalTime, .setTimeUpdateNotify, .delete]⟩
  else
    ⟨(sntpClientRun r.run).status,
      [.create .success, .setLocalTime, .setTimeUpdateNotify] ++ (sntpClientRun r.run).calls⟩

/-- `sntp_thread_entry` up to a number of rounds of its loop. -/
def sntpThreadEntry (r : SetupReplies) (rounds : List Round) : Thread :=
  if (setup r).status ≠ .success then ⟨0, (setup r).calls⟩
  else rounds.foldl Thread.round ⟨0, (setup r).calls⟩

/-- The run gets past its name lookup and fails. -/
def RunReplies.FailsBehindLookup (r : RunReplies) : Prop :=
  r.dnsHostByNameGet = .success ∧ ¬(r.initializeUnicast = .success ∧ r.runUnicast = .success)

instance (r : RunReplies) : Decidable r.FailsBehindLookup := by
  unfold RunReplies.FailsBehindLookup
  infer_instance

/-- The round restarts the client, and the restart fails behind its name lookup. -/
def Round.RestartFails (r : Round) : Prop :=
  r.receivingUpdates = .success ∧ r.serverStatus = false ∧ r.run.FailsBehindLookup

/-- The client is there: it is stopped or running. -/
def ClientState.Present (s : ClientState) : Prop := s = .stopped ∨ s = .running

theorem ClientState.Present.ne_deleted {s : ClientState} (h : s.Present) : s ≠ .deleted := by
  rcases h with rfl | rfl
  · decide
  · decide

/-- A call that is no start is allowed on a client that is there. -/
theorem allowed_of_present {s : ClientState} {call : SntpCall} (hs : s.Present)
    (hcall : call.starts = false) : sntpProtocol.Allowed s call :=
  ⟨hs.ne_deleted, fun h => Bool.noConfusion (hcall.symm.trans h)⟩

/-- The calls of a run obey the protocol on a stopped client and leave it there, or deleted when the
run fails behind its lookup, which its status shows. -/
structure GoodRun (r : RunReplies) (d : Done) : Prop where
  obeys : sntpProtocol.Obeys .stopped d.calls
  present : ¬r.FailsBehindLookup → (sntpProtocol.after .stopped d.calls).Present
  deleted : r.FailsBehindLookup → sntpProtocol.after .stopped d.calls = .deleted
  status : r.FailsBehindLookup → d.status ≠ .success

theorem sntpClientRun_good (r : RunReplies) : GoodRun r (sntpClientRun r) := by
  rw [sntpClientRun]
  by_cases hdns : r.dnsHostByNameGet = .success
  · rw [if_neg (not_not_intro hdns)]
    by_cases hunicast : r.initializeUnicast = .success
    · rw [if_neg (not_not_intro hunicast)]
      by_cases hrun : r.runUnicast = .success
      · rw [if_neg (not_not_intro hrun)]
        have hpassed : ¬r.FailsBehindLookup := fun h => h.2 ⟨hunicast, hrun⟩
        exact ⟨by decide, fun _ => Or.inr rfl, fun h => absurd h hpassed, fun h => absurd h hpassed⟩
      · rw [if_pos hrun]
        have hstopped : SntpCall.effect .stopped (.runUnicast r.runUnicast) = .stopped := if_neg hrun
        have hfails : r.FailsBehindLookup := ⟨hdns, fun hboth => hrun hboth.2⟩
        refine ⟨⟨by decide, ⟨by decide, fun _ => rfl⟩, ?_⟩, fun h => absurd hfails h, fun _ => rfl,
          fun _ => hrun⟩
        show sntpProtocol.Obeys (SntpCall.effect .stopped (.runUnicast r.runUnicast)) [.stop, .delete]
        rw [hstopped]
        decide
    · rw [if_pos hunicast]
      have hfails : r.FailsBehindLookup := ⟨hdns, fun hboth => hunicast hboth.1⟩
      have hobeys : sntpProtocol.Obeys .stopped [.initializeUnicast, .delete] := by decide
      exact ⟨hobeys, fun h => absurd hfails h, fun _ => rfl, fun _ => hunicast⟩
  · rw [if_pos hdns]
    have hpassed : ¬r.FailsBehindLookup := fun h => hdns h.1
    exact ⟨trivial, fun _ => Or.inl rfl, fun h => absurd h hpassed, fun h => absurd h hpassed⟩

/-- The calls in front of the loop obey the protocol, and the loop starts with a client. -/
theorem setup_good (r : SetupReplies) : sntpProtocol.Obeys .absent (setup r).calls ∧
    ((setup r).status = .success → (sntpProtocol.after .absent (setup r).calls).Present) := by
  rw [setup]
  by_cases hcreate : r.create = .success
  · rw [if_neg (not_not_intro hcreate)]
    by_cases hlocal : r.setLocalTime = .success
    · rw [if_neg (not_not_intro hlocal)]
      by_cases hnotify : r.setTimeUpdateNotify = .success
      · rw [if_neg (not_not_intro hnotify)]
        have hgood := sntpClientRun_good r.run
        refine ⟨Protocol.obeys_append.mpr ⟨by decide, hgood.obeys⟩, fun hstatus => ?_⟩
        rw [Protocol.after_append]
        exact hgood.present fun hfails => hgood.status hfails hstatus
      · rw [if_pos hnotify]
        exact ⟨show sntpProtocol.Obeys .absent [.create .success, .setLocalTime, .setTimeUpdateNotify,
          .delete] by decide, fun h => absurd h hnotify⟩
    · rw [if_pos hlocal]
      exact ⟨show sntpProtocol.Obeys .absent [.create .success, .setLocalTime, .delete] by decide,
        fun h => absurd h hlocal⟩
  · rw [if_pos hcreate]
    exact ⟨⟨⟨by decide, fun h => nomatch h⟩, trivial⟩, fun h => absurd h hcreate⟩

/-- The calls of a round on a client that is there: they begin with `receiving_updates`, obey the
protocol, and leave the client there, or deleted when a restart fails. -/
structure GoodRound (r : Round) (calls : List SntpCall) : Prop where
  receives : ∃ rest, calls = .receivingUpdates :: rest
  obeys : ∀ s : ClientState, s.Present → sntpProtocol.Obeys s calls
  present : ¬r.RestartFails → ∀ s : ClientState, s.Present → (sntpProtocol.after s calls).Present
  deleted : r.RestartFails → ∀ s, sntpProtocol.after s calls = .deleted

/-- Calls that start nothing and change no state. -/
theorem GoodRound.of_idle {r : Round} {calls : List SntpCall} (hr : ¬r.RestartFails)
    (hcalls : ∀ call ∈ calls, call.starts = false ∧ ∀ s, call.effect s = s) :
    GoodRound r (.receivingUpdates :: calls) := by
  have hidle : ∀ s : ClientState, s.Present →
      sntpProtocol.Obeys s calls ∧ sntpProtocol.after s calls = s := by
    intro s hs
    induction calls with
    | nil => exact ⟨trivial, rfl⟩
    | cons call calls ih =>
        obtain ⟨hcall, hrest⟩ := List.forall_mem_cons.mp hcalls
        have hnext : sntpProtocol.next s call = s := hcall.2 s
        rw [Protocol.obeys_cons, Protocol.after_cons, hnext]
        exact ⟨⟨allowed_of_present hs hcall.1, (ih hrest).1⟩, (ih hrest).2⟩
  refine ⟨⟨_, rfl⟩, fun s hs => ⟨allowed_of_present hs rfl, (hidle s hs).1⟩, fun _ s hs => ?_,
    fun h => absurd h hr⟩
  show (sntpProtocol.after s calls).Present
  rw [(hidle s hs).2]
  exact hs

theorem round_good (t : Thread) (r : Round) :
    ∃ calls, (t.round r).calls = t.calls ++ calls ∧ GoodRound r calls := by
  rw [Thread.round]
  by_cases hupdates : r.receivingUpdates = .success
  · rw [if_neg (not_not_intro hupdates)]
    by_cases hserver : r.serverStatus = false
    · rw [if_pos hserver]
      have hgood := sntpClientRun_good r.run
      refine ⟨_, rfl, ⟨_, rfl⟩, fun s hs => ?_, fun hrestart s _ => ?_, fun hrestart s => ?_⟩
      · refine ⟨allowed_of_present hs rfl, allowed_of_present hs rfl, hgood.obeys⟩
      · exact hgood.present fun h => hrestart ⟨hupdates, hserver, h⟩
      · exact hgood.deleted hrestart.2.2
    · have hrestart : ¬r.RestartFails := fun h => hserver h.2.1
      rw [if_neg hserver]
      split
      · refine ⟨_, rfl, .of_idle hrestart ?_⟩
        rw [setSntpTime]
        split
        · exact fun call hmem => by
            rw [List.mem_singleton.mp hmem]
            exact ⟨rfl, fun _ => rfl⟩
        · intro call hmem
          rcases List.mem_pair.mp hmem with rfl | rfl
          · exact ⟨rfl, fun _ => rfl⟩
          · exact ⟨rfl, fun _ => rfl⟩
      · exact ⟨_, rfl, .of_idle hrestart fun _ hmem => nomatch hmem⟩
  · rw [if_pos hupdates]
    exact ⟨_, rfl, .of_idle (fun h => hupdates h.1) fun _ hmem => nomatch hmem⟩

/-- The rounds of the loop only add calls. -/
theorem rounds_extend (t : Thread) (rounds : List Round) :
    ∃ more, (rounds.foldl Thread.round t).calls = t.calls ++ more := by
  induction rounds generalizing t with
  | nil => exact ⟨[], (List.append_nil _).symm⟩
  | cons r rounds ih =>
      obtain ⟨calls, hcalls, -⟩ := round_good t r
      obtain ⟨more, hmore⟩ := ih (t.round r)
      exact ⟨calls ++ more, by rw [List.foldl_cons, hmore, hcalls, List.append_assoc]⟩

theorem rounds_obey_iff (rounds : List Round) (t : Thread)
    (hobeys : sntpProtocol.Obeys .absent t.calls)
    (hpresent : (sntpProtocol.after .absent t.calls).Present) :
    sntpProtocol.Obeys .absent (rounds.foldl Thread.round t).calls ↔
      ∀ r ∈ rounds.dropLast, ¬r.RestartFails := by
  induction rounds generalizing t with
  | nil => exact ⟨fun _ _ hmem => (nomatch hmem), fun _ => hobeys⟩
  | cons r rounds ih =>
      obtain ⟨calls, hcalls, hgood⟩ := round_good t r
      have hround : sntpProtocol.Obeys .absent (t.round r).calls := by
        rw [hcalls]
        exact Protocol.obeys_append.mpr ⟨hobeys, hgood.obeys _ hpresent⟩
      cases rounds with
      | nil => exact ⟨fun _ _ hmem => (nomatch hmem), fun _ => hround⟩
      | cons r' rounds =>
          rw [List.foldl_cons, List.dropLast_cons_cons, List.forall_mem_cons]
          by_cases hfails : r.RestartFails
          · refine ⟨fun h => ?_, fun h => absurd hfails h.1⟩
            -- the next round asks the deleted client for updates
            obtain ⟨calls', hcalls', ⟨rest, rfl⟩, -, -, -⟩ := round_good (t.round r) r'
            obtain ⟨more, hmore⟩ := rounds_extend ((t.round r).round r') rounds
            rw [List.foldl_cons, hmore, hcalls', List.append_assoc, Protocol.obeys_append, hcalls,
              Protocol.after_append, hgood.deleted hfails] at h
            exact absurd rfl h.2.1.1
          · rw [and_iff_right hfails]
            apply ih (t.round r) hround
            rw [hcalls, Protocol.after_append]
            exact hgood.present hfails _ hpresent

/-- **The thread obeys the protocol of the client exactly if no restart fails before its last round.** -/
theorem sntpThreadEntry_obeys_iff (r : SetupReplies) (rounds : List Round) :
    sntpProtocol.Obeys .absent (sntpThreadEntry r rounds).calls ↔
      (setup r).status ≠ .success ∨ ∀ x ∈ rounds.dropLast, ¬x.RestartFails := by
  obtain ⟨hobeys, hpresent⟩ := setup_good r
  rw [sntpThreadEntry]
  by_cases hstatus : (setup r).status = .success
  · rw [if_neg (not_not_intro hstatus), or_iff_right (not_not_intro hstatus)]
    exact rounds_obey_iff rounds _ hobeys (hpresent hstatus)
  · rw [if_pos hstatus]
    exact ⟨fun _ => Or.inl hstatus, fun _ => hobeys⟩

/-- A silent server and a restart whose `initialize_unicast` fails. -/
def failedRestart : Round :=
  ⟨none, .success, false, ⟨.success, .notSuccessful, .success⟩, .success⟩

/-- The round after a failed restart calls the deleted client. -/
theorem failedRestart_reused : ¬sntpProtocol.Obeys .absent
    (sntpThreadEntry ⟨.success, .success, .success, ⟨.success, .success, .success⟩⟩
      [failedRestart, failedRestart]).calls := by
  decide

end DeviceSample.Sntp
