import DeviceSample.BaseLifecycle
import DeviceSample.Sdk

/-!
Network bring-up. `network_init` creates the packet pool and the IP instance, `dhcp_wait` the DHCP client
and `dns_create` the DNS client; each exit undoes by hand what stands in front of it.
-/

namespace DeviceSample.Network

open Base

inductive NetObject
  | packetPool
  | ip
  | dhcpClient
  | dnsClient
  deriving DecidableEq, Repr

/-- The calls of the bring-up that return a status. -/
inductive NetFunction
  | packetPoolCreate
  | ipCreate
  | arpEnable
  | tcpEnable
  | udpEnable
  | icmpEnable
  | dhcpCreate
  | dhcpStart
  | ipStatusCheck
  | ipAddressGet
  | ipGatewayAddressGet
  | dnsCreate
  | dnsPacketPoolSet
  | dhcpInterfaceUserOptionRetrieve
  | dnsServerAdd
  | dnsDelete
  | dhcpDelete
  | ipDelete
  | packetPoolDelete
  deriving DecidableEq, Repr

/-- The objects that a call takes. -/
def NetFunction.uses : NetFunction → List NetObject
  | .packetPoolCreate => []
  | .ipCreate => [.packetPool]
  | .arpEnable => [.ip]
  | .tcpEnable => [.ip]
  | .udpEnable => [.ip]
  | .icmpEnable => [.ip]
  | .dhcpCreate => [.ip]
  | .dhcpStart => [.dhcpClient]
  | .ipStatusCheck => [.ip]
  | .ipAddressGet => [.ip]
  | .ipGatewayAddressGet => [.ip]
  | .dnsCreate => [.ip]
  -- the pool is `nx_ip.nx_ip_default_packet_pool`
  | .dnsPacketPoolSet => [.dnsClient, .ip, .packetPool]
  | .dhcpInterfaceUserOptionRetrieve => [.dhcpClient]
  | .dnsServerAdd => [.dnsClient]
  | .dnsDelete => [.dnsClient]
  | .dhcpDelete => [.dhcpClient]
  | .ipDelete => [.ip]
  | .packetPoolDelete => [.packetPool]

def NetFunction.creates : NetFunction → List NetObject
  | .packetPoolCreate => [.packetPool]
  | .ipCreate => [.ip]
  | .dhcpCreate => [.dhcpClient]
  | .dnsCreate => [.dnsClient]
  | _ => []

def NetFunction.deletes : NetFunction → List NetObject
  | .dnsDelete => [.dnsClient]
  | .dhcpDelete => [.dhcpClient]
  | .ipDelete => [.ip]
  | .packetPoolDelete => [.packetPool]
  | _ => []

def netLifecycle : Lifecycle NetFunction NetObject where
  uses := NetFunction.uses
  creates := NetFunction.creates
  deletes := NetFunction.deletes

/-- What the calls return. The deletions behind a failed `dns_create` may be the second ones of a run
and have replies of their own. -/
structure NetReplies where
  reply : NetFunction → Status
  dnsCleanup : NetFunction → Status

def NetReplies.tried (r : NetReplies) (f : NetFunction) : Tried NetFunction := ⟨f, r.reply f = .success⟩

/-- The record of some calls. -/
def NetReplies.made (r : NetReplies) (functions : List NetFunction) : List (Tried NetFunction) :=
  functions.map r.tried

def NetReplies.madeBehindDns (r : NetReplies) (functions : List NetFunction) : List (Tried NetFunction) :=
  functions.map fun f => ⟨f, r.dnsCleanup f = .success⟩

/-- A status and the calls that were made. -/
structure Waited where
  status : Status
  calls : List (Tried NetFunction)

/-- `dhcp_wait`; the status of the first two calls is overwritten. -/
def dhcpWait (r : NetReplies) : Waited :=
  let calls := r.made [.dhcpCreate, .dhcpStart, .ipStatusCheck]
  if r.reply .ipStatusCheck ≠ .success then ⟨r.reply .ipStatusCheck, calls⟩
  else ⟨r.reply .ipStatusCheck, calls ++ r.made [.ipAddressGet, .ipGatewayAddressGet]⟩

/-- `dns_create`; the flag says whether `NX_DNS_CLIENT_USER_CREATE_PACKET_POOL` is defined. -/
def dnsCreate (userCreatePacketPool : Bool) (r : NetReplies) : Waited :=
  let poolSet := if userCreatePacketPool then [NetFunction.dnsPacketPoolSet] else []
  if r.reply .dnsCreate ≠ .success then ⟨r.reply .dnsCreate, r.made [.dnsCreate]⟩
  else if userCreatePacketPool ∧ r.reply .dnsPacketPoolSet ≠ .success then
    ⟨r.reply .dnsPacketPoolSet, r.made [.dnsCreate, .dnsPacketPoolSet, .dnsDelete]⟩
  else if r.reply .dnsServerAdd ≠ .success then
    ⟨r.reply .dnsServerAdd,
      r.made ([.dnsCreate] ++ poolSet ++ [.dhcpInterfaceUserOptionRetrieve, .dnsServerAdd, .dnsDelete])⟩
  else ⟨.success, r.made ([.dnsCreate] ++ poolSet ++ [.dhcpInterfaceUserOptionRetrieve, .dnsServerAdd])⟩

/-- The result of `network_init` and its calls. -/
structure BroughtUp where
  result : Bool
  calls : List (Tried NetFunction)

/-- `network_init`. -/
def networkInit (userCreatePacketPool : Bool) (r : NetReplies) : BroughtUp :=
  if r.reply .packetPoolCreate ≠ .success then ⟨false, r.made [.packetPoolCreate]⟩
  else if r.reply .ipCreate ≠ .success then
    ⟨false, r.made [.packetPoolCreate, .ipCreate, .packetPoolDelete]⟩
  else if r.reply .arpEnable ≠ .success then
    ⟨false, r.made [.packetPoolCreate, .ipCreate, .arpEnable, .ipDelete, .packetPoolDelete]⟩
  else if r.reply .tcpEnable ≠ .success then
    ⟨false, r.made [.packetPoolCreate, .ipCreate, .arpEnable, .tcpEnable, .ipDelete, .packetPoolDelete]⟩
  else if r.reply .udpEnable ≠ .success then
    ⟨false, r.made [.packetPoolCreate, .ipCreate, .arpEnable, .tcpEnable, .udpEnable, .ipDelete,
      .packetPoolDelete]⟩
  else if r.reply .icmpEnable ≠ .success then
    ⟨false, r.made [.packetPoolCreate, .ipCreate, .arpEnable, .tcpEnable, .udpEnable, .icmpEnable, .ipDelete,
      .packetPoolDelete]⟩
  else
    let enabled := r.made [.packetPoolCreate, .ipCreate, .arpEnable, .tcpEnable, .udpEnable, .icmpEnable]
    let dhcp := dhcpWait r
    -- a failed `dhcp_wait` is undone, and the bring-up goes on
    let undone := if dhcp.status ≠ .success then r.made [.ipDelete, .packetPoolDelete] else []
    let dns := dnsCreate userCreatePacketPool r
    let calls := enabled ++ dhcp.calls ++ undone ++ dns.calls
    if dns.status ≠ .success then
      ⟨false, calls ++ r.madeBehindDns [.dhcpDelete, .ipDelete, .packetPoolDelete]⟩
    else ⟨true, calls⟩

/-- A bring-up that succeeds has all its objects, and no call of it failed; one that fails has none; and
no object is used that does not exist. -/
structure BroughtUp.Clean (x : BroughtUp) : Prop where
  succeeded : x.result = true →
    (∀ object, object ∈ netLifecycle.protocol.after ∅ x.calls) ∧ ∀ t ∈ x.calls, t.succeeded = true
  failed : x.result = false → netLifecycle.protocol.after ∅ x.calls = ∅
  obeys : netLifecycle.protocol.Obeys ∅ x.calls

/-- A call in front of `dhcp_wait` fails, and the deletions of its exit succeed. -/
def NetReplies.StopsEarly (r : NetReplies) : Prop :=
  r.reply .packetPoolCreate ≠ .success ∨
    r.reply .packetPoolDelete = .success ∧
      (r.reply .ipCreate ≠ .success ∨
        r.reply .ipDelete = .success ∧
          firstFailure ([.arpEnable, .tcpEnable, .udpEnable, .icmpEnable].map r.reply) ≠ .success)

/-- The calls in front of `dhcp_wait` succeed. -/
def NetReplies.Enables (r : NetReplies) : Prop :=
  firstFailure ([.packetPoolCreate, .ipCreate, .arpEnable, .tcpEnable, .udpEnable, .icmpEnable].map r.reply) =
    .success

/-- The address is resolved; or it is not, and neither of the deletions that follow does its work. -/
def NetReplies.KeepsNetwork (r : NetReplies) : Prop :=
  r.reply .ipStatusCheck = .success ∨ r.reply .ipDelete ≠ .success ∧ r.reply .packetPoolDelete ≠ .success

/-- A call of `dns_create` fails that it looks at. -/
def NetReplies.DnsFails (userCreatePacketPool : Bool) (r : NetReplies) : Prop :=
  r.reply .dnsCreate ≠ .success ∨ userCreatePacketPool = true ∧ r.reply .dnsPacketPoolSet ≠ .success ∨
    r.reply .dnsServerAdd ≠ .success

/-- The bring-up gets to `dns_create` with all it needs, and fails there, and each deletion succeeds. -/
structure NetReplies.StopsAtDns (userCreatePacketPool : Bool) (r : NetReplies) : Prop where
  enables : r.Enables
  dhcp_created : r.reply .dhcpCreate = .success
  keeps : r.KeepsNetwork
  fails : r.DnsFails userCreatePacketPool
  dns_deleted : r.reply .dnsCreate = .success → r.reply .dnsDelete = .success
  undone : ∀ f ∈ [NetFunction.dhcpDelete, .ipDelete, .packetPoolDelete], r.dnsCleanup f = .success

/-- Every call succeeds, also those whose status is not looked at. -/
structure NetReplies.Completes (userCreatePacketPool : Bool) (r : NetReplies) : Prop where
  enables : r.Enables
  dhcp : ∀ f ∈ [NetFunction.dhcpCreate, .dhcpStart, .ipStatusCheck, .ipAddressGet, .ipGatewayAddressGet],
    r.reply f = .success
  dns : ¬r.DnsFails userCreatePacketPool
  option_retrieved : r.reply .dhcpInterfaceUserOptionRetrieve = .success

section exits

variable {r : NetReplies}

theorem tried_of_success {f : NetFunction} (h : r.reply f = .success) : r.tried f = ⟨f, true⟩ := by
  rw [NetReplies.tried, h]
  rfl

theorem tried_of_failure {f : NetFunction} (h : r.reply f ≠ .success) : r.tried f = ⟨f, false⟩ := by
  rw [NetReplies.tried, decide_eq_false h]

/-- Without an object that is left over, a failed bring-up is clean exactly if it obeys. -/
theorem clean_false_iff {calls : List (Tried NetFunction)} : BroughtUp.Clean ⟨false, calls⟩ ↔
    netLifecycle.protocol.after ∅ calls = ∅ ∧ netLifecycle.protocol.Obeys ∅ calls :=
  ⟨fun h => ⟨h.failed rfl, h.obeys⟩, fun h => ⟨fun hresult => Bool.noConfusion hresult, fun _ => h.1, h.2⟩⟩

theorem made_cons (r : NetReplies) (f : NetFunction) (functions : List NetFunction) :
    r.made (f :: functions) = r.tried f :: r.made functions := rfl

theorem made_append (r : NetReplies) (first second : List NetFunction) :
    r.made (first ++ second) = r.made first ++ r.made second := List.map_append

/-- The pool and the IP instance. -/
def network : Finset NetObject := {.packetPool, .ip}

/-- Calls that only take what exists, and change nothing. -/
theorem made_idle (functions : List NetFunction) {live : Finset NetObject}
    (h : ∀ f ∈ functions, netLifecycle.Idle f ∧ ∀ object ∈ f.uses, object ∈ live) :
    netLifecycle.protocol.after live (r.made functions) = live ∧
      netLifecycle.protocol.Obeys live (r.made functions) := by
  have hcalls : ∀ t ∈ r.made functions, netLifecycle.Idle t.call ∧ ∀ object ∈ t.call.uses, object ∈ live := by
    intro t ht
    obtain ⟨f, hf, rfl⟩ := List.mem_map.mp ht
    exact h f hf
  have hidle := fun t ht => (hcalls t ht).1
  exact ⟨Lifecycle.after_idle hidle, Lifecycle.obeys_idle hidle fun t ht => (hcalls t ht).2⟩

/-- The two creations in front of all others, and calls that only take what they created. -/
theorem made_network (middle : List NetFunction)
    (hmiddle : ∀ f ∈ middle, netLifecycle.Idle f ∧ ∀ object ∈ f.uses, object ∈ network)
    (hpool : r.reply .packetPoolCreate = .success) (hip : r.reply .ipCreate = .success) :
    netLifecycle.protocol.after ∅ (r.made ([.packetPoolCreate, .ipCreate] ++ middle)) = network ∧
      netLifecycle.protocol.Obeys ∅ (r.made ([.packetPoolCreate, .ipCreate] ++ middle)) := by
  have hcreated : r.made [.packetPoolCreate, .ipCreate] = [⟨.packetPoolCreate, true⟩, ⟨.ipCreate, true⟩] := by
    rw [made_cons, made_cons, tried_of_success hpool, tried_of_success hip]
    rfl
  have hnetwork : netLifecycle.protocol.after ∅ [⟨.packetPoolCreate, true⟩, ⟨.ipCreate, true⟩] = network := by
    decide
  obtain ⟨hafter, hobeys⟩ := made_idle (r := r) middle hmiddle
  rw [made_append, Protocol.after_append, Protocol.obeys_append, hcreated, hnetwork]
  exact ⟨hafter, by decide, hobeys⟩

/-- The exits in front of `dhcp_wait` undo the creations exactly if both deletions succeed. -/
theorem enable_exit_iff (middle : List NetFunction)
    (hmiddle : ∀ f ∈ middle, netLifecycle.Idle f ∧ ∀ object ∈ f.uses, object ∈ network)
    (hpool : r.reply .packetPoolCreate = .success) (hip : r.reply .ipCreate = .success) :
    BroughtUp.Clean ⟨false, r.made ([.packetPoolCreate, .ipCreate] ++ middle ++ [.ipDelete, .packetPoolDelete])⟩ ↔
      r.reply .packetPoolDelete = .success ∧ r.reply .ipDelete = .success := by
  have hdeletions : ∀ deleted deleted' : Bool,
      netLifecycle.protocol.Obeys network [⟨.ipDelete, deleted⟩, ⟨.packetPoolDelete, deleted'⟩] ∧
        (netLifecycle.protocol.after network [⟨.ipDelete, deleted⟩, ⟨.packetPoolDelete, deleted'⟩] = ∅ ↔
          deleted' = true ∧ deleted = true) := by
    decide
  obtain ⟨hobeys', hundone⟩ := hdeletions (r.reply .ipDelete = .success) (r.reply .packetPoolDelete = .success)
  obtain ⟨hafter, hobeys⟩ := made_network middle hmiddle hpool hip
  rw [decide_eq_true_iff, decide_eq_true_iff] at hundone
  rw [clean_false_iff, made_append, Protocol.after_append, Protocol.obeys_append, hafter]
  exact (and_iff_left ⟨hobeys, hobeys'⟩).trans hundone

end exits

section dhcp

variable {r : NetReplies} {userCreatePacketPool : Bool}

/-- The objects that `dns_create` relies on. -/
def connected : Finset NetObject := {.packetPool, .ip, .dhcpClient}

def allObjects : Finset NetObject := {.packetPool, .ip, .dhcpClient, .dnsClient}

theorem dhcpWait_status (r : NetReplies) : (dhcpWait r).status = r.reply .ipStatusCheck := by
  rw [dhcpWait]
  split <;> rfl

/-- The calls of `dhcp_wait` begin with the creation and the start, whatever the creation returns. -/
theorem dhcpWait_calls (r : NetReplies) : ∃ more,
    (dhcpWait r).calls = r.made ([.dhcpCreate, .dhcpStart] ++ .ipStatusCheck :: more) ∧
      (r.reply .ipStatusCheck = .success → more = [.ipAddressGet, .ipGatewayAddressGet]) ∧
        ∀ f ∈ more, netLifecycle.Idle f ∧ ∀ object ∈ f.uses, object ∈ connected := by
  rw [dhcpWait]
  split
  · rename_i hfailed
    exact ⟨[], rfl, fun h => absurd h hfailed, nofun⟩
  · exact ⟨[.ipAddressGet, .ipGatewayAddressGet], rfl, fun _ => rfl, by decide⟩

theorem dhcpWait_connects (hcreated : r.reply .dhcpCreate = .success) :
    netLifecycle.protocol.after network (dhcpWait r).calls = connected ∧
      netLifecycle.protocol.Obeys network (dhcpWait r).calls := by
  obtain ⟨more, hcalls, -, hmore⟩ := dhcpWait_calls r
  have hnext : netLifecycle.protocol.next network ⟨.dhcpCreate, true⟩ = connected := by decide
  have hothers : ∀ f ∈ NetFunction.dhcpStart :: .ipStatusCheck :: more,
      netLifecycle.Idle f ∧ ∀ object ∈ f.uses, object ∈ connected :=
    List.forall_mem_cons.mpr ⟨by decide, List.forall_mem_cons.mpr ⟨by decide, hmore⟩⟩
  obtain ⟨hafter, hobeys⟩ := made_idle (r := r) _ hothers
  rw [hcalls, List.cons_append, List.singleton_append, made_cons, tried_of_success hcreated, Protocol.after_cons,
    Protocol.obeys_cons, hnext]
  exact ⟨hafter, by decide, hobeys⟩

/-- A DHCP client that was not created is started. -/
theorem dhcpWait_not_obeys (hcreated : r.reply .dhcpCreate ≠ .success) :
    ¬netLifecycle.protocol.Obeys network (dhcpWait r).calls := by
  obtain ⟨more, hcalls, -, -⟩ := dhcpWait_calls r
  have hnext : netLifecycle.protocol.next network ⟨.dhcpCreate, false⟩ = network := rfl
  rw [hcalls, List.cons_append, List.singleton_append, made_cons, made_cons, tried_of_failure hcreated,
    Protocol.obeys_cons, Protocol.obeys_cons, hnext]
  rintro ⟨-, hstarted, -⟩
  have hclient : NetObject.dhcpClient ∈ network := hstarted _ (List.mem_singleton.mpr rfl)
  exact absurd hclient (by decide)

end dhcp

section dns

variable {r : NetReplies} {userCreatePacketPool : Bool}

/-- What `dns_create` can do. -/
inductive DnsCourse (userCreatePacketPool : Bool) (r : NetReplies) : Waited → Prop
  | notCreated : r.reply .dnsCreate ≠ .success →
      DnsCourse userCreatePacketPool r ⟨r.reply .dnsCreate, r.made [.dnsCreate]⟩
  | undone {status : Status} (middle : List NetFunction) : r.reply .dnsCreate = .success →
      r.DnsFails userCreatePacketPool → status ≠ .success →
        (∀ f ∈ middle, netLifecycle.Idle f ∧ ∀ object ∈ f.uses, object ∈ allObjects) →
          DnsCourse userCreatePacketPool r ⟨status, r.made (.dnsCreate :: (middle ++ [.dnsDelete]))⟩
  | completed (poolSet : List NetFunction) : ¬r.DnsFails userCreatePacketPool →
      poolSet = (if userCreatePacketPool then [.dnsPacketPoolSet] else []) →
        DnsCourse userCreatePacketPool r
          ⟨.success, r.made (.dnsCreate :: (poolSet ++ [.dhcpInterfaceUserOptionRetrieve, .dnsServerAdd]))⟩

theorem dns_idle (userCreatePacketPool : Bool) :
    ∀ f ∈ (if userCreatePacketPool then [NetFunction.dnsPacketPoolSet] else []) ++
      [.dhcpInterfaceUserOptionRetrieve, .dnsServerAdd],
        netLifecycle.Idle f ∧ ∀ object ∈ f.uses, object ∈ allObjects := by
  cases userCreatePacketPool <;> decide

theorem dnsCreate_course (userCreatePacketPool : Bool) (r : NetReplies) :
    DnsCourse userCreatePacketPool r (dnsCreate userCreatePacketPool r) := by
  rw [dnsCreate]
  by_cases hcreate : r.reply .dnsCreate = .success
  · rw [if_neg (not_not_intro hcreate)]
    by_cases hpool : userCreatePacketPool = true ∧ r.reply .dnsPacketPoolSet ≠ .success
    · rw [if_pos hpool]
      exact .undone [.dnsPacketPoolSet] hcreate (Or.inr (Or.inl hpool)) hpool.2 (by decide)
    · rw [if_neg hpool]
      by_cases hadd : r.reply .dnsServerAdd = .success
      · have hpasses : ¬r.DnsFails userCreatePacketPool := by
          rintro (h | h | h)
          · exact h hcreate
          · exact hpool h
          · exact h hadd
        rw [if_neg (not_not_intro hadd)]
        exact .completed _ hpasses rfl
      · have hfails : r.DnsFails userCreatePacketPool := Or.inr (Or.inr hadd)
        have hcourse := DnsCourse.undone _ hcreate hfails hadd (dns_idle userCreatePacketPool)
        rw [List.append_assoc] at hcourse
        rw [if_pos hadd]
        exact hcourse
  · rw [if_pos hcreate]
    exact .notCreated hcreate

/-- `dns_create` takes the IP instance first, and it creates no packet pool. -/
theorem DnsCourse.begins {w : Waited} (h : DnsCourse userCreatePacketPool r w) :
    (∃ more, w.calls = r.tried .dnsCreate :: more) ∧
      ∀ t ∈ w.calls, NetObject.packetPool ∉ netLifecycle.creates t.call := by
  have hcreate : NetObject.packetPool ∉ NetFunction.creates .dnsCreate := by decide
  have hdelete : ∀ f ∈ [NetFunction.dnsDelete], NetObject.packetPool ∉ NetFunction.creates f := by decide
  have hidle : ∀ {functions : List NetFunction},
      (∀ f ∈ functions, netLifecycle.Idle f ∧ ∀ object ∈ f.uses, object ∈ allObjects) →
        ∀ f ∈ functions, NetObject.packetPool ∉ netLifecycle.creates f := by
    intro functions hfunctions f hf
    rw [(hfunctions f hf).1.1]
    exact List.not_mem_nil
  cases h with
  | notCreated hfailed =>
      exact ⟨⟨_, rfl⟩, List.forall_mem_map.mpr (List.forall_mem_cons.mpr ⟨hcreate, nofun⟩)⟩
  | undone middle hcreated hfails hstatus hmiddle =>
      have hothers := List.forall_mem_append.mpr ⟨hidle hmiddle, hdelete⟩
      exact ⟨⟨_, rfl⟩, List.forall_mem_map.mpr (List.forall_mem_cons.mpr ⟨hcreate, hothers⟩)⟩
  | completed poolSet hpasses hpoolSet =>
      have hothers := hidle (dns_idle userCreatePacketPool)
      rw [← hpoolSet] at hothers
      exact ⟨⟨_, rfl⟩, List.forall_mem_map.mpr (List.forall_mem_cons.mpr ⟨hcreate, hothers⟩)⟩

/-- Behind a creation of the DNS client, calls that only take what exists. -/
theorem made_dns (functions : List NetFunction)
    (h : ∀ f ∈ functions, netLifecycle.Idle f ∧ ∀ object ∈ f.uses, object ∈ allObjects)
    (hcreated : r.reply .dnsCreate = .success) :
    netLifecycle.protocol.after connected (r.made (.dnsCreate :: functions)) = allObjects ∧
      netLifecycle.protocol.Obeys connected (r.made (.dnsCreate :: functions)) := by
  have hnext : netLifecycle.protocol.next connected ⟨.dnsCreate, true⟩ = allObjects := by decide
  obtain ⟨hafter, hobeys⟩ := made_idle (r := r) functions h
  rw [made_cons, tried_of_success hcreated, Protocol.after_cons, Protocol.obeys_cons, hnext]
  exact ⟨hafter, by decide, hobeys⟩

/-- The three deletions behind a failed `dns_create`. -/
theorem dnsCleanup_iff (r : NetReplies) (live : Finset NetObject) (hlive : live = connected ∨ live = allObjects) :
    let deletions := r.madeBehindDns [.dhcpDelete, .ipDelete, .packetPoolDelete]
    netLifecycle.protocol.Obeys live deletions ∧
      (netLifecycle.protocol.after live deletions = ∅ ↔ live = connected ∧
        ∀ f ∈ [NetFunction.dhcpDelete, .ipDelete, .packetPoolDelete], r.dnsCleanup f = .success) := by
  have hdeletions : ∀ deleted deleted' deleted'' : Bool, ∀ left : Bool,
      let live := if left then allObjects else connected
      let calls := [⟨.dhcpDelete, deleted⟩, ⟨.ipDelete, deleted'⟩, ⟨.packetPoolDelete, deleted''⟩]
      netLifecycle.protocol.Obeys live calls ∧
        (netLifecycle.protocol.after live calls = ∅ ↔
          left = false ∧ deleted = true ∧ deleted' = true ∧ deleted'' = true) := by
    decide
  have hchosen := hdeletions (r.dnsCleanup .dhcpDelete = .success) (r.dnsCleanup .ipDelete = .success)
    (r.dnsCleanup .packetPoolDelete = .success)
  simp only [decide_eq_true_iff] at hchosen
  simp only [List.forall_mem_cons, List.not_mem_nil, false_implies, implies_true, and_true]
  rcases hlive with rfl | rfl
  · have h := hchosen false
    simp only [true_and, if_false, Bool.false_eq_true] at h
    exact ⟨h.1, h.2.trans (and_iff_right rfl).symm⟩
  · have h := hchosen true
    have hmore : allObjects ≠ connected := by decide
    exact ⟨h.1, h.2.trans (iff_of_false (fun h => nomatch h.1) fun h => hmore h.1)⟩

end dns

section bringUp

variable {r : NetReplies} {userCreatePacketPool : Bool}

theorem enables_iff : r.Enables ↔ ∀ f ∈ [NetFunction.packetPoolCreate, .ipCreate, .arpEnable, .tcpEnable,
    .udpEnable, .icmpEnable], r.reply f = .success := by
  rw [NetReplies.Enables, firstFailure_eq_success, List.forall_mem_map]

/-- A failed creation of the IP instance leaves the pool to delete. -/
theorem ip_exit_iff (hpool : r.reply .packetPoolCreate = .success) (hip : r.reply .ipCreate ≠ .success) :
    BroughtUp.Clean ⟨false, r.made [.packetPoolCreate, .ipCreate, .packetPoolDelete]⟩ ↔
      r.reply .packetPoolDelete = .success := by
  have hcalls : r.made [.packetPoolCreate, .ipCreate, .packetPoolDelete] =
      [⟨.packetPoolCreate, true⟩, ⟨.ipCreate, false⟩, r.tried .packetPoolDelete] := by
    rw [made_cons, made_cons, tried_of_success hpool, tried_of_failure hip]
    rfl
  have hdeletion : ∀ deleted : Bool,
      let calls := [⟨.packetPoolCreate, true⟩, ⟨.ipCreate, false⟩, ⟨.packetPoolDelete, deleted⟩]
      netLifecycle.protocol.Obeys ∅ calls ∧ (netLifecycle.protocol.after ∅ calls = ∅ ↔ deleted = true) := by
    decide
  obtain ⟨hobeys, hundone⟩ := hdeletion (r.reply .packetPoolDelete = .success)
  rw [clean_false_iff, hcalls]
  exact (and_iff_left hobeys).trans (hundone.trans decide_eq_true_iff)

/-- The bring-up of a run that does not get to `dhcp_wait`. -/
theorem networkInit_stopped_iff (h : ¬r.Enables) :
    (networkInit userCreatePacketPool r).Clean ↔ r.StopsEarly := by
  rw [networkInit, NetReplies.StopsEarly]
  by_cases hpool : r.reply .packetPoolCreate = .success
  · rw [if_neg (not_not_intro hpool), or_iff_right (not_not_intro hpool)]
    by_cases hip : r.reply .ipCreate = .success
    · rw [if_neg (not_not_intro hip), or_iff_right (not_not_intro hip)]
      have hfails : firstFailure ([.arpEnable, .tcpEnable, .udpEnable, .icmpEnable].map r.reply) ≠ .success := by
        intro hsucceed
        rw [firstFailure_eq_success, List.forall_mem_map] at hsucceed
        exact h (enables_iff.mpr (List.forall_mem_cons.mpr ⟨hpool, List.forall_mem_cons.mpr ⟨hip, hsucceed⟩⟩))
      rw [and_iff_left hfails]
      by_cases harp : r.reply .arpEnable = .success
      · rw [if_neg (not_not_intro harp)]
        by_cases htcp : r.reply .tcpEnable = .success
        · rw [if_neg (not_not_intro htcp)]
          by_cases hudp : r.reply .udpEnable = .success
          · rw [if_neg (not_not_intro hudp)]
            have hicmp : r.reply .icmpEnable ≠ .success := by
              intro hicmp
              refine hfails (firstFailure_eq_success.mpr ?_)
              simp [harp, htcp, hudp, hicmp]
            rw [if_pos hicmp]
            exact enable_exit_iff [.arpEnable, .tcpEnable, .udpEnable, .icmpEnable] (by decide) hpool hip
          · rw [if_pos hudp]
            exact enable_exit_iff [.arpEnable, .tcpEnable, .udpEnable] (by decide) hpool hip
        · rw [if_pos htcp]
          exact enable_exit_iff [.arpEnable, .tcpEnable] (by decide) hpool hip
      · rw [if_pos harp]
        exact enable_exit_iff [.arpEnable] (by decide) hpool hip
    · rw [if_pos hip, or_iff_left_of_imp fun _ => hip, and_iff_left hip]
      exact ip_exit_iff hpool hip
  · have hcalls : r.made [.packetPoolCreate] = [⟨.packetPoolCreate, false⟩] := by
      rw [made_cons, tried_of_failure hpool]
      rfl
    rw [if_pos hpool, clean_false_iff, hcalls]
    exact iff_of_true (by decide) (Or.inl hpool)

/-- The calls in front of `dns_create`. -/
def NetReplies.connectCalls (r : NetReplies) : List (Tried NetFunction) :=
  r.made [.packetPoolCreate, .ipCreate, .arpEnable, .tcpEnable, .udpEnable, .icmpEnable] ++ (dhcpWait r).calls ++
    if (dhcpWait r).status ≠ .success then r.made [.ipDelete, .packetPoolDelete] else []

/-- The exit behind a failed `dns_create`. -/
def NetReplies.dnsExit (r : NetReplies) : List (Tried NetFunction) :=
  r.madeBehindDns [.dhcpDelete, .ipDelete, .packetPoolDelete]

theorem networkInit_enabled (h : r.Enables) {dns : Waited} (hdns : dnsCreate userCreatePacketPool r = dns) :
    networkInit userCreatePacketPool r = if dns.status ≠ .success then ⟨false, r.connectCalls ++ dns.calls ++ r.dnsExit⟩
      else ⟨true, r.connectCalls ++ dns.calls⟩ := by
  have hall := enables_iff.mp h
  simp only [List.forall_mem_cons] at hall
  obtain ⟨hpool, hip, harp, htcp, hudp, hicmp, -⟩ := hall
  rw [networkInit, if_neg (not_not_intro hpool), if_neg (not_not_intro hip), if_neg (not_not_intro harp),
    if_neg (not_not_intro htcp), if_neg (not_not_intro hudp), if_neg (not_not_intro hicmp), hdns]
  rfl

theorem enabled_network (h : r.Enables) :
    let calls := r.made [.packetPoolCreate, .ipCreate, .arpEnable, .tcpEnable, .udpEnable, .icmpEnable]
    netLifecycle.protocol.after ∅ calls = network ∧ netLifecycle.protocol.Obeys ∅ calls := by
  have hall := enables_iff.mp h
  simp only [List.forall_mem_cons] at hall
  exact made_network [.arpEnable, .tcpEnable, .udpEnable, .icmpEnable] (by decide) hall.1 hall.2.1

/-- The state behind the deletions that follow an unresolved address. -/
theorem undo_connected (deleted deleted' : Bool) :
    let calls := [⟨.ipDelete, deleted⟩, ⟨.packetPoolDelete, deleted'⟩]
    netLifecycle.protocol.Obeys connected calls ∧
      (deleted = true → NetObject.ip ∉ netLifecycle.protocol.after connected calls) ∧
      (deleted' = true → NetObject.packetPool ∉ netLifecycle.protocol.after connected calls) ∧
      (deleted = false ∧ deleted' = false → netLifecycle.protocol.after connected calls = connected) := by
  revert deleted deleted'
  decide

/-- The objects in front of `dns_create`. -/
theorem connectCalls_after (h : r.Enables) (hcreated : r.reply .dhcpCreate = .success) :
    netLifecycle.protocol.after ∅ r.connectCalls =
      netLifecycle.protocol.after connected
        (if r.reply .ipStatusCheck ≠ .success then r.made [.ipDelete, .packetPoolDelete] else []) ∧
      netLifecycle.protocol.Obeys ∅ r.connectCalls := by
  obtain ⟨henabled, hobeys⟩ := enabled_network h
  obtain ⟨hconnected, hobeys'⟩ := dhcpWait_connects hcreated
  have hundo := (undo_connected (r.reply .ipDelete = .success) (r.reply .packetPoolDelete = .success)).1
  rw [NetReplies.connectCalls, dhcpWait_status, Protocol.after_append, Protocol.after_append, henabled, hconnected,
    Protocol.obeys_append, Protocol.obeys_append, Protocol.after_append, henabled, hconnected]
  refine ⟨rfl, ⟨hobeys, hobeys'⟩, ?_⟩
  split
  · exact hundo
  · trivial

theorem connectCalls_connected (h : r.Enables) (hcreated : r.reply .dhcpCreate = .success) (hkeeps : r.KeepsNetwork) :
    netLifecycle.protocol.after ∅ r.connectCalls = connected := by
  rw [(connectCalls_after h hcreated).1]
  rcases hkeeps with hresolved | ⟨hip, hpool⟩
  · rw [if_neg (not_not_intro hresolved), Protocol.after_nil]
  · split
    · exact (undo_connected _ _).2.2.2 ⟨decide_eq_false hip, decide_eq_false hpool⟩
    · rfl

/-- A client that was not created is started, and what follows does not matter. -/
theorem connectCalls_not_obeys (h : r.Enables) (hcreated : r.reply .dhcpCreate ≠ .success)
    (more : List (Tried NetFunction)) : ¬netLifecycle.protocol.Obeys ∅ (r.connectCalls ++ more) := by
  rw [NetReplies.connectCalls, Protocol.obeys_append, Protocol.obeys_append, Protocol.obeys_append,
    (enabled_network h).1]
  exact fun hobeys => dhcpWait_not_obeys hcreated hobeys.1.1.2

theorem made_succeed_iff {functions : List NetFunction} :
    (∀ t ∈ r.made functions, t.succeeded = true) ↔ ∀ f ∈ functions, r.reply f = .success := by
  rw [NetReplies.made, List.forall_mem_map]
  exact forall₂_congr fun f _ => decide_eq_true_iff

theorem connectCalls_succeed_iff (h : r.Enables) : (∀ t ∈ r.connectCalls, t.succeeded = true) ↔
    ∀ f ∈ [NetFunction.dhcpCreate, .dhcpStart, .ipStatusCheck, .ipAddressGet, .ipGatewayAddressGet],
      r.reply f = .success := by
  obtain ⟨more, hcalls, hresolved, -⟩ := dhcpWait_calls r
  rw [NetReplies.connectCalls, dhcpWait_status, List.forall_mem_append, List.forall_mem_append, hcalls,
    made_succeed_iff, made_succeed_iff, and_iff_right (enables_iff.mp h)]
  by_cases hstatus : r.reply .ipStatusCheck = .success
  · rw [if_neg (not_not_intro hstatus), hresolved hstatus]
    exact and_iff_left nofun
  · refine iff_of_false (fun hsucceed => hstatus ?_) fun hsucceed => hstatus ?_
    · exact hsucceed.1 _ (List.mem_append_right _ (List.mem_cons_self ..))
    · exact hsucceed _ (by decide)

/-- Only the retrieved option is not looked at by a `dns_create` that completes. -/
theorem dns_succeed_iff (hpasses : ¬r.DnsFails userCreatePacketPool) {poolSet : List NetFunction}
    (hpoolSet : poolSet = if userCreatePacketPool then [.dnsPacketPoolSet] else []) :
    (∀ f ∈ .dnsCreate :: (poolSet ++ [.dhcpInterfaceUserOptionRetrieve, .dnsServerAdd]), r.reply f = .success) ↔
      r.reply .dhcpInterfaceUserOptionRetrieve = .success := by
  rw [NetReplies.DnsFails, not_or, not_or, not_not, not_not] at hpasses
  obtain ⟨hcreated, hpool, hadded⟩ := hpasses
  have hset : ∀ f ∈ poolSet, r.reply f = .success := by
    rw [hpoolSet]
    split
    · rename_i hdefined
      rw [and_iff_right hdefined, not_not] at hpool
      exact List.forall_mem_singleton.mpr hpool
    · nofun
  simp only [List.forall_mem_cons, List.forall_mem_append, hcreated, hadded, List.not_mem_nil, false_implies,
    implies_true, and_true, true_and]
  exact and_iff_right hset

/-- `dns_create` takes an IP instance that is deleted. -/
theorem not_clean_of_ip_deleted (h : r.Enables) (hcreated : r.reply .dhcpCreate = .success)
    (hstatus : r.reply .ipStatusCheck ≠ .success) (hip : r.reply .ipDelete = .success) :
    ¬(networkInit userCreatePacketPool r).Clean := by
  obtain ⟨hafter, -⟩ := connectCalls_after h hcreated
  rw [if_pos hstatus] at hafter
  obtain ⟨⟨more, hdns⟩, -⟩ := (dnsCreate_course userCreatePacketPool r).begins
  have hmissing := (undo_connected _ (r.reply .packetPoolDelete = .success)).2.1 (decide_eq_true hip)
  have hbroken : ∀ rest, ¬netLifecycle.protocol.Obeys ∅ (r.connectCalls ++ (r.tried .dnsCreate :: more ++ rest)) := by
    intro rest hobeys
    rw [Protocol.obeys_append, hafter] at hobeys
    exact hmissing (hobeys.2.1 _ (List.mem_singleton.mpr rfl))
  rw [networkInit_enabled h rfl]
  split
  · rw [List.append_assoc, hdns]
    exact fun hclean => hbroken _ hclean.obeys
  · rw [hdns, ← List.append_nil (r.tried .dnsCreate :: more)]
    exact fun hclean => hbroken _ hclean.obeys

/-- A pool that is deleted is deleted once more behind a failed `dns_create`; behind one that succeeds, the unresolved
address is a call that failed. -/
theorem not_clean_of_pool_deleted (h : r.Enables) (hcreated : r.reply .dhcpCreate = .success)
    (hstatus : r.reply .ipStatusCheck ≠ .success) (hpool : r.reply .packetPoolDelete = .success) :
    ¬(networkInit userCreatePacketPool r).Clean := by
  obtain ⟨hafter, -⟩ := connectCalls_after h hcreated
  rw [if_pos hstatus] at hafter
  obtain ⟨-, hpools⟩ := (dnsCreate_course userCreatePacketPool r).begins
  have hmissing := (undo_connected (r.reply .ipDelete = .success) _).2.2.1 (decide_eq_true hpool)
  rw [networkInit_enabled h rfl]
  split
  · intro hclean
    have hobeys := hclean.obeys
    have hexit : ∀ t ∈ r.dnsExit, NetObject.packetPool ∉ netLifecycle.creates t.call := by
      refine List.forall_mem_map.mpr (fun f hf => ?_)
      exact (show ∀ f ∈ [NetFunction.dhcpDelete, .ipDelete, .packetPoolDelete],
        NetObject.packetPool ∉ NetFunction.creates f by decide) f hf
    rw [List.append_assoc, Protocol.obeys_append, hafter] at hobeys
    refine Lifecycle.not_obeys_of_missing hmissing ?_ ?_ hobeys.2
    · exact List.forall_mem_append.mpr ⟨hpools, hexit⟩
    · exact ⟨⟨.packetPoolDelete, r.dnsCleanup .packetPoolDelete = .success⟩,
        List.mem_append_right _ (by simp [NetReplies.dnsExit, NetReplies.madeBehindDns]), List.mem_singleton.mpr rfl⟩
  · intro hclean
    have hchecked : r.tried .ipStatusCheck ∈ r.connectCalls := by
      obtain ⟨later, hcalls, -⟩ := dhcpWait_calls r
      rw [NetReplies.connectCalls, hcalls]
      simp [NetReplies.made]
    have hsucceeded := (hclean.succeeded rfl).2 _ (List.mem_append_left _ hchecked)
    exact hstatus (of_decide_eq_true hsucceeded)

/-- Deletions of a network that is not kept. -/
theorem not_clean_of_not_keeps (h : r.Enables) (hcreated : r.reply .dhcpCreate = .success) (hkeeps : ¬r.KeepsNetwork) :
    ¬(networkInit userCreatePacketPool r).Clean := by
  have hstatus : r.reply .ipStatusCheck ≠ .success := fun hresolved => hkeeps (Or.inl hresolved)
  by_cases hip : r.reply .ipDelete = .success
  · exact not_clean_of_ip_deleted h hcreated hstatus hip
  · refine not_clean_of_pool_deleted h hcreated hstatus ?_
    by_contra hpool
    exact hkeeps (Or.inr ⟨hip, hpool⟩)

theorem kept_append (h : r.Enables) (hcreated : r.reply .dhcpCreate = .success) (hkeeps : r.KeepsNetwork)
    (more : List (Tried NetFunction)) :
    (netLifecycle.protocol.Obeys ∅ (r.connectCalls ++ more) ↔ netLifecycle.protocol.Obeys connected more) ∧
      netLifecycle.protocol.after ∅ (r.connectCalls ++ more) = netLifecycle.protocol.after connected more := by
  have hconnected := connectCalls_connected h hcreated hkeeps
  rw [Protocol.obeys_append, Protocol.after_append, hconnected]
  exact ⟨and_iff_right (connectCalls_after h hcreated).2, rfl⟩

/-- A `dns_create` that fails leaves its client if it created one and does not delete it. -/
theorem dns_failed_course {w : Waited} (h : DnsCourse userCreatePacketPool r w) (hstatus : w.status ≠ .success) :
    r.DnsFails userCreatePacketPool ∧ netLifecycle.protocol.Obeys connected w.calls ∧
      netLifecycle.protocol.after connected w.calls =
        if r.reply .dnsCreate = .success → r.reply .dnsDelete = .success then connected else allObjects := by
  cases h with
  | notCreated hfailed =>
      have hmade : r.made [.dnsCreate] = [⟨.dnsCreate, false⟩] := by
        rw [made_cons, tried_of_failure hfailed]
        rfl
      have hallowed : netLifecycle.protocol.Obeys connected [⟨.dnsCreate, false⟩] := by decide
      rw [if_pos fun hcreated => absurd hcreated hfailed, hmade]
      exact ⟨Or.inl hfailed, hallowed, rfl⟩
  | undone middle hcreated hfails hfailed hmiddle =>
      obtain ⟨hafter, hallowed⟩ := made_dns middle hmiddle hcreated
      have hdeletion : ∀ deleted : Bool, netLifecycle.protocol.Obeys allObjects [⟨.dnsDelete, deleted⟩] ∧
          netLifecycle.protocol.after allObjects [⟨.dnsDelete, deleted⟩] =
            if deleted then connected else allObjects := by
        decide
      obtain ⟨hdelete, hleft⟩ := hdeletion (r.reply .dnsDelete = .success)
      rw [← List.cons_append, made_append, Protocol.obeys_append, Protocol.after_append, hafter]
      refine ⟨hfails, ⟨hallowed, hdelete⟩, hleft.trans ?_⟩
      simp only [decide_eq_true_iff, hcreated, true_implies]
  | completed poolSet hpasses hpoolSet => exact absurd rfl hstatus

/-- A kept network that `dns_create` fails on is clean if each deletion behind the failure succeeds. -/
theorem kept_failed_iff (h : r.Enables) (hcreated : r.reply .dhcpCreate = .success) (hkeeps : r.KeepsNetwork)
    (hstatus : (dnsCreate userCreatePacketPool r).status ≠ .success) :
    (networkInit userCreatePacketPool r).Clean ↔ r.StopsAtDns userCreatePacketPool := by
  obtain ⟨hfails, hallowed, hleft⟩ := dns_failed_course (dnsCreate_course userCreatePacketPool r) hstatus
  obtain ⟨hobeys, hafter⟩ := kept_append h hcreated hkeeps
    ((dnsCreate userCreatePacketPool r).calls ++ r.dnsExit)
  rw [networkInit_enabled h rfl, if_pos hstatus, clean_false_iff, List.append_assoc, hafter, hobeys,
    Protocol.after_append, Protocol.obeys_append, hleft, NetReplies.dnsExit]
  by_cases hdeleted : r.reply .dnsCreate = .success → r.reply .dnsDelete = .success
  · obtain ⟨hexit, hundone⟩ := dnsCleanup_iff r connected (Or.inl rfl)
    rw [if_pos hdeleted, hundone]
    constructor
    · rintro ⟨⟨-, hcleaned⟩, -⟩
      exact ⟨h, hcreated, hkeeps, hfails, hdeleted, hcleaned⟩
    · exact fun hstops => ⟨⟨rfl, hstops.undone⟩, hallowed, hexit⟩
  · obtain ⟨-, hundone⟩ := dnsCleanup_iff r allObjects (Or.inr rfl)
    have hmore : allObjects ≠ connected := by decide
    rw [if_neg hdeleted, hundone]
    exact iff_of_false (fun hclean => hmore hclean.1.1) fun hstops => hdeleted hstops.dns_deleted

/-- A kept network that `dns_create` completes is clean if no call failed. -/
theorem kept_completed_iff (h : r.Enables) (hcreated : r.reply .dhcpCreate = .success) (hkeeps : r.KeepsNetwork)
    (hpasses : ¬r.DnsFails userCreatePacketPool) :
    (networkInit userCreatePacketPool r).Clean ↔ r.Completes userCreatePacketPool := by
  generalize hdns : dnsCreate userCreatePacketPool r = dns
  have hcourse := dnsCreate_course userCreatePacketPool r
  rw [networkInit_enabled h hdns]
  rw [hdns] at hcourse
  cases hcourse with
  | notCreated hfailed => exact absurd (Or.inl hfailed) hpasses
  | undone middle hdnsCreated hfails hstatus hmiddle => exact absurd hfails hpasses
  | completed poolSet hpasses hpoolSet =>
      have hidle := dns_idle userCreatePacketPool
      rw [← hpoolSet] at hidle
      have hdnsCreated : r.reply .dnsCreate = .success := not_not.mp fun hfailed => hpasses (Or.inl hfailed)
      obtain ⟨hleft, hallowed⟩ := made_dns _ hidle hdnsCreated
      obtain ⟨hobeys, hafter⟩ := kept_append h hcreated hkeeps
        (r.made (.dnsCreate :: (poolSet ++ [.dhcpInterfaceUserOptionRetrieve, .dnsServerAdd])))
      have hall : ∀ object, object ∈ allObjects := by
        intro object
        cases object <;> decide
      rw [if_neg (not_not_intro rfl)]
      constructor
      · intro hclean
        have hsucceeded := (hclean.succeeded rfl).2
        rw [List.forall_mem_append, connectCalls_succeed_iff h, made_succeed_iff,
          dns_succeed_iff hpasses hpoolSet] at hsucceeded
        exact ⟨h, hsucceeded.1, hpasses, hsucceeded.2⟩
      · intro hcompletes
        refine ⟨fun _ => ⟨?_, ?_⟩, fun hresult => Bool.noConfusion hresult, hobeys.mpr hallowed⟩
        · rw [hafter, hleft]
          exact hall
        · rw [List.forall_mem_append, connectCalls_succeed_iff h, made_succeed_iff, dns_succeed_iff hpasses hpoolSet]
          exact ⟨hcompletes.dhcp, hcompletes.option_retrieved⟩

/-- A `dns_create` reports what fails in it. -/
theorem dns_status_iff : (dnsCreate userCreatePacketPool r).status ≠ .success ↔ r.DnsFails userCreatePacketPool := by
  generalize hdns : dnsCreate userCreatePacketPool r = dns
  have hcourse := dnsCreate_course userCreatePacketPool r
  rw [hdns] at hcourse
  cases hcourse with
  | notCreated hfailed => exact iff_of_true hfailed (Or.inl hfailed)
  | undone middle hcreated hfails hstatus hmiddle => exact iff_of_true hstatus hfails
  | completed poolSet hpasses hpoolSet => exact iff_of_false (not_not_intro rfl) hpasses

/-- The bring-up cleans up behind itself if it stops in front of `dhcp_wait` with deletions that work, or if it
gets to `dns_create` with the network it created and stops there with deletions that work, or if no call of
it fails. A `dhcp_wait` that fails deletes the network, and the bring-up goes on without it. -/
theorem networkInit_clean_iff (userCreatePacketPool : Bool) (r : NetReplies) :
    (networkInit userCreatePacketPool r).Clean ↔
      r.StopsEarly ∨ r.StopsAtDns userCreatePacketPool ∨ r.Completes userCreatePacketPool := by
  by_cases h : r.Enables
  · have hearly : ¬r.StopsEarly := by
      have hall := enables_iff.mp h
      simp only [List.forall_mem_cons] at hall
      obtain ⟨hpool, hip, harp, htcp, hudp, hicmp, -⟩ := hall
      simp [NetReplies.StopsEarly, firstFailure, hpool, hip, harp, htcp, hudp, hicmp]
    rw [or_iff_right hearly]
    by_cases hcreated : r.reply .dhcpCreate = .success
    · by_cases hkeeps : r.KeepsNetwork
      · by_cases hfails : r.DnsFails userCreatePacketPool
        · rw [or_iff_left fun hcompletes => hcompletes.dns hfails]
          exact kept_failed_iff h hcreated hkeeps (dns_status_iff.mpr hfails)
        · rw [or_iff_right fun hstops => hfails hstops.fails]
          exact kept_completed_iff h hcreated hkeeps hfails
      · refine iff_of_false (not_clean_of_not_keeps h hcreated hkeeps) ?_
        rintro (hstops | hcompletes)
        · exact hkeeps hstops.keeps
        · exact hkeeps (Or.inl (hcompletes.dhcp _ (by decide)))
    · refine iff_of_false (fun hclean => ?_) ?_
      · have hobeys := hclean.obeys
        rw [networkInit_enabled h rfl] at hobeys
        split at hobeys
        · rw [List.append_assoc] at hobeys
          exact connectCalls_not_obeys h hcreated _ hobeys
        · exact connectCalls_not_obeys h hcreated _ hobeys
      · rintro (hstops | hcompletes)
        · exact hcreated hstops.dhcp_created
        · exact hcreated (hcompletes.dhcp _ (by decide))
  · rw [networkInit_stopped_iff h, or_iff_left_of_imp]
    rintro (hstops | hcompletes)
    · exact absurd hstops.enables h
    · exact absurd hcompletes.enables h

/-- Every call succeeds, but the address stays unresolved. -/
def unresolved : NetReplies where
  reply f := if f = .ipStatusCheck then .other 20 else .success
  dnsCleanup _ := .success

/-- The DNS client of a bring-up without an address is created on the deleted IP instance, and the bring-up
reports success. -/
theorem unresolved_not_clean : ¬(networkInit false unresolved).Clean := by
  intro hclean
  exact absurd hclean.obeys (by decide)

end bringUp

end DeviceSample.Network
