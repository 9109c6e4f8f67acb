import Mathlib.Data.List.Perm.Basic
import AndroidX86Tv.Dhcp.Interface
import AndroidX86Tv.Lib.History

/-!
# The default route (client/router.cpp)

`setDefaultGateway` sends one request for a new route and does not wait for the
answer. Nothing is ever removed from the main table, so it ends with one default
route only if every request that is carried out asks for the same one.

## Implementation notes

The kernel is a parameter. It may refuse any request; of those that it does not
refuse only the ones for a new route without `NLM_F_REPLACE` and `NLM_F_EXCL` are
described, and not where in the table it keeps a route.
-/

namespace AndroidX86Tv.Dhcp

open EventHistory

def rtmNewRoute : UInt16 := 24

def nlmFRequest : UInt16 := 1
def nlmFReplace : UInt16 := 0x100
def nlmFExcl : UInt16 := 0x200
def nlmFCreate : UInt16 := 0x400

def afInet : UInt8 := 2
def rtTableMain : UInt8 := 254
def rtprotBoot : UInt8 := 3
def rtScopeUniverse : UInt8 := 0
def rtnUnicast : UInt8 := 1

def rtaOif : UInt16 := 4
def rtaGateway : UInt16 := 5
def rtaPriority : UInt16 := 6

/-- `struct rtmsg`, the members that `setDefaultGateway` sets. -/
structure RtMsg where
  rtmFamily : UInt8
  rtmDstLen : UInt8
  rtmTable : UInt8
  rtmProtocol : UInt8
  rtmScope : UInt8
  rtmType : UInt8
  deriving DecidableEq

structure RouteRequest where
  nlmsgType : UInt16
  nlmsgFlags : UInt16
  msg : RtMsg
  attributes : List (UInt16 × UInt32)

/-- A route of the main table for IPv4. -/
structure Route where
  dstLen : UInt8
  protocol : UInt8
  scope : UInt8
  type : UInt8
  gateway : InAddr
  oif : UInt32
  priority : UInt32
  deriving DecidableEq

def Route.isDefault (route : Route) : Bool := route.dstLen = 0

namespace RouteRequest

def addRouterAttribute (request : RouteRequest) (type : UInt16) (data : UInt32) : RouteRequest :=
  { request with attributes := request.attributes ++ [(type, data)] }

/-- The value of an attribute, zero if the request has none. -/
def attributeValue (request : RouteRequest) (type : UInt16) : UInt32 :=
  (request.attributes.lookup type).getD 0

/-- The route that is asked for. -/
def route (request : RouteRequest) : Route where
  dstLen := request.msg.rtmDstLen
  protocol := request.msg.rtmProtocol
  scope := request.msg.rtmScope
  type := request.msg.rtmType
  gateway := request.attributeValue rtaGateway
  oif := request.attributeValue rtaOif
  priority := request.attributeValue rtaPriority

/-- The request is for a route of the main table beside those that are there. -/
def Creates (request : RouteRequest) : Prop :=
  request.nlmsgType = rtmNewRoute ∧ request.nlmsgFlags &&& nlmFCreate ≠ 0 ∧
    request.nlmsgFlags &&& (nlmFReplace ||| nlmFExcl) = 0 ∧
    request.msg.rtmFamily = afInet ∧ request.msg.rtmTable = rtTableMain

instance (request : RouteRequest) : Decidable request.Creates :=
  inferInstanceAs (Decidable (_ ∧ _))

end RouteRequest

/-- What the kernel makes of the main table on a request, which it may refuse. -/
structure Kernel where
  handle : List Route → RouteRequest → Bool → List Route
  refuses : ∀ table request, handle table request true = table
  /-- An identical route is refused. -/
  identical : ∀ table request, request.Creates → request.route ∈ table →
    handle table request false = table
  /-- A differing route is added beside the others. -/
  adds : ∀ table request, request.Creates → request.route ∉ table →
    (handle table request false).Perm (request.route :: table)

/-- A call of `setDefaultGateway`, with what `sendto` reports and whether the
kernel refuses the request. -/
structure RouteCall where
  gateway : InAddr
  ifaceIndex : UInt32
  sent : Bool
  refused : Bool

namespace Router

/-- The request that `setDefaultGateway` builds. -/
def gatewayRequest (gateway : InAddr) (ifaceIndex : UInt32) : RouteRequest :=
  let request : RouteRequest :=
    { nlmsgType := rtmNewRoute
      nlmsgFlags := nlmFRequest ||| nlmFCreate
      msg :=
        { rtmFamily := afInet
          rtmDstLen := 0
          rtmTable := rtTableMain
          rtmProtocol := rtprotBoot
          rtmScope := rtScopeUniverse
          rtmType := rtnUnicast }
      attributes := [] }
  let request := request.addRouterAttribute rtaGateway gateway
  request.addRouterAttribute rtaOif ifaceIndex

/-- `Router::setDefaultGateway` on an open socket: the result of `sendto`, and the
main table. -/
def setDefaultGateway (kernel : Kernel) (table : List Route) (call : RouteCall) :
    Bool × List Route :=
  if call.sent then
    (true, kernel.handle table (gatewayRequest call.gateway call.ifaceIndex) call.refused)
  else (false, table)

/-- The main table after the calls. -/
def tableAfter (kernel : Kernel) : List Route → List RouteCall → List Route :=
  run fun table call => (setDefaultGateway kernel table call).2

/-- The default route that a call asks for. -/
def asked (call : RouteCall) : Route :=
  (gatewayRequest call.gateway call.ifaceIndex).route

def defaults (table : List Route) : List Route := table.filter Route.isDefault

/-- There is one default route, through the gateway and the interface. -/
def OnlyDefault (table : List Route) (gateway : InAddr) (ifaceIndex : UInt32) : Prop :=
  ∃ route, defaults table = [route] ∧ route.gateway = gateway ∧ route.oif = ifaceIndex

/-- Every call that is not refused asks for a route with the property. -/
def AllAsk (calls : List RouteCall) (P : Route → Prop) : Prop :=
  ∀ call ∈ calls, call.refused = false → P (asked call)

variable {kernel : Kernel} {table : List Route} {calls : List RouteCall} {call last : RouteCall}

theorem gatewayFlags_create : (nlmFRequest ||| nlmFCreate) &&& nlmFCreate ≠ 0 ∧
    (nlmFRequest ||| nlmFCreate) &&& (nlmFReplace ||| nlmFExcl) = 0 := by decide

theorem gatewayRequest_creates (gateway : InAddr) (ifaceIndex : UInt32) :
    (gatewayRequest gateway ifaceIndex).Creates :=
  ⟨rfl, gatewayFlags_create.1, gatewayFlags_create.2, rfl, rfl⟩

@[simp] theorem asked_gateway (call : RouteCall) : (asked call).gateway = call.gateway := rfl

@[simp] theorem asked_oif (call : RouteCall) : (asked call).oif = call.ifaceIndex := rfl

theorem asked_isDefault (call : RouteCall) : (asked call).isDefault = true := rfl

theorem asked_eq {other : RouteCall} (hgateway : call.gateway = other.gateway)
    (hiface : call.ifaceIndex = other.ifaceIndex) : asked call = asked other := by
  rw [asked, asked, hgateway, hiface]

theorem asked_mem_defaults_iff : asked call ∈ defaults table ↔ asked call ∈ table := by
  rw [defaults, List.mem_filter]
  exact and_iff_left (asked_isDefault call)

section Step

variable (hsent : call.sent = true)

include hsent in
theorem step_refused (hrefused : call.refused = true) :
    (setDefaultGateway kernel table call).2 = table := by
  rw [setDefaultGateway, if_pos hsent, hrefused]
  exact kernel.refuses _ _

include hsent in
theorem step_identical (hmem : asked call ∈ table) :
    (setDefaultGateway kernel table call).2 = table := by
  cases hrefused : call.refused with
  | true => exact step_refused hsent hrefused
  | false =>
      rw [setDefaultGateway, if_pos hsent, hrefused]
      exact kernel.identical _ _ (gatewayRequest_creates _ _) hmem

include hsent in
theorem step_adds (hrefused : call.refused = false) (hmem : asked call ∉ table) :
    (defaults (setDefaultGateway kernel table call).2).Perm (asked call :: defaults table) := by
  have hperm := kernel.adds table _ (gatewayRequest_creates call.gateway call.ifaceIndex) hmem
  have hdefaults := hperm.filter Route.isDefault
  rw [setDefaultGateway, if_pos hsent, hrefused]
  have hasked := List.filter_cons_of_pos (l := table) (asked_isDefault call)
  exact hasked ▸ hdefaults

include hsent in
/-- No call removes a default route. -/
theorem length_step_ge :
    (defaults table).length ≤ (defaults (setDefaultGateway kernel table call).2).length := by
  by_cases hmem : asked call ∈ table
  · exact Nat.le_of_eq (by rw [step_identical hsent hmem])
  · cases hrefused : call.refused with
    | true => exact Nat.le_of_eq (by rw [step_refused hsent hrefused])
    | false =>
        rw [(step_adds hsent hrefused hmem).length_eq, List.length_cons]
        exact Nat.le_succ _

end Step

theorem tableAfter_cons (kernel : Kernel) (table : List Route) (call : RouteCall)
    (calls : List RouteCall) : tableAfter kernel table (call :: calls) =
      tableAfter kernel (setDefaultGateway kernel table call).2 calls := rfl

theorem length_tableAfter_ge (kernel : Kernel) (table : List Route)
    (hsent : ∀ call ∈ calls, call.sent = true) :
    (defaults table).length ≤ (defaults (tableAfter kernel table calls)).length := by
  induction calls generalizing table with
  | nil => exact Nat.le_refl _
  | cons call calls ih =>
      obtain ⟨hcall, hlater⟩ := List.forall_mem_cons.mp hsent
      exact Nat.le_trans (length_step_ge hcall) (ih _ hlater)

theorem allAsk_cons {P : Route → Prop} : AllAsk (call :: calls) P ↔
    (call.refused = false → P (asked call)) ∧ AllAsk calls P :=
  List.forall_mem_cons

/-- Beside a default route nothing but itself may be asked for. By induction on the
calls: the first one that adds another makes two, and two they remain. -/
theorem defaults_of_one (hsent : ∀ call ∈ calls, call.sent = true) {old route : Route}
    (hone : defaults table = [old]) : defaults (tableAfter kernel table calls) = [route] ↔
      old = route ∧ AllAsk calls (· = route) := by
  induction calls generalizing table with
  | nil =>
      rw [tableAfter, run, List.foldl_nil, hone, List.singleton_inj]
      exact (and_iff_left fun call hmem => absurd hmem List.not_mem_nil).symm
  | cons call calls ih =>
      obtain ⟨hcall, hlater⟩ := List.forall_mem_cons.mp hsent
      rw [tableAfter_cons, allAsk_cons]
      cases hrefused : call.refused with
      | true =>
          rw [step_refused hcall hrefused, ih hlater hone]
          simp
      | false =>
          by_cases hmem : asked call ∈ table
          · have hsame : asked call = old := by
              rw [← asked_mem_defaults_iff, hone] at hmem
              exact List.mem_singleton.mp hmem
            rw [step_identical hcall hmem, ih hlater hone, hsame]
            simp
          · have htwo := length_tableAfter_ge kernel (setDefaultGateway kernel table call).2 hlater
            rw [(step_adds hcall hrefused hmem).length_eq, hone] at htwo
            refine iff_of_false (fun honly => ?_) ?_
            · rw [honly, List.length_cons, List.length_singleton, List.length_singleton] at htwo
              exact absurd htwo (by decide)
            · rintro ⟨rfl, hasks, -⟩
              rw [← asked_mem_defaults_iff, hone, hasks rfl] at hmem
              exact hmem List.mem_cons_self

/-- Without a default route one must be asked for, and no other. -/
theorem defaults_of_none (hsent : ∀ call ∈ calls, call.sent = true) {route : Route}
    (hnone : defaults table = []) : defaults (tableAfter kernel table calls) = [route] ↔
      (∃ call ∈ calls, call.refused = false) ∧ AllAsk calls (· = route) := by
  induction calls generalizing table with
  | nil =>
      rw [tableAfter, run, List.foldl_nil, hnone]
      exact iff_of_false nofun fun h => absurd h.1 (by simp)
  | cons call calls ih =>
      obtain ⟨hcall, hlater⟩ := List.forall_mem_cons.mp hsent
      rw [tableAfter_cons, allAsk_cons]
      cases hrefused : call.refused with
      | true =>
          rw [step_refused hcall hrefused, ih hlater hnone]
          simp [hrefused]
      | false =>
          have hmem : asked call ∉ table := by
            rw [← asked_mem_defaults_iff, hnone]
            exact List.not_mem_nil
          have hadded : (defaults (setDefaultGateway kernel table call).2).Perm [asked call] := by
            rw [← hnone]
            exact step_adds hcall hrefused hmem
          rw [defaults_of_one hlater (List.perm_singleton.mp hadded)]
          simp [hrefused]

/-- Two default routes remain two. -/
theorem not_onlyDefault_of_two (hsent : ∀ call ∈ calls, call.sent = true)
    (htwo : 2 ≤ (defaults table).length) {gateway : InAddr} {ifaceIndex : UInt32} :
    ¬ OnlyDefault (tableAfter kernel table calls) gateway ifaceIndex := by
  rintro ⟨route, honly, -⟩
  have hmore := length_tableAfter_ge kernel table hsent
  rw [honly, List.length_singleton] at hmore
  omega

/-- Only one default route is ever asked for: there is none and some call that
is not refused asks for the last one's, or there is one already. -/
def Settled (table : List Route) (calls : List RouteCall) (last : RouteCall) : Prop :=
  (defaults table = [] ∧ (∃ call ∈ calls, call.refused = false) ∧
      AllAsk calls fun route => route.gateway = last.gateway ∧ route.oif = last.ifaceIndex) ∨
    ∃ old, defaults table = [old] ∧ old.gateway = last.gateway ∧ old.oif = last.ifaceIndex ∧
      AllAsk calls (· = old)

theorem onlyDefault_tableAfter_iff (hsent : ∀ call ∈ calls, call.sent = true) :
    OnlyDefault (tableAfter kernel table calls) last.gateway last.ifaceIndex ↔
      Settled table calls last := by
  cases hdefaults : defaults table with
  | nil =>
      simp only [OnlyDefault, defaults_of_none hsent hdefaults, Settled, hdefaults]
      constructor
      · rintro ⟨route, ⟨hsome, hasks⟩, hgateway, hoif⟩
        refine Or.inl ⟨trivial, hsome, fun call hmem hrefused => ?_⟩
        rw [hasks call hmem hrefused]
        exact ⟨hgateway, hoif⟩
      · rintro (⟨-, hsome, hasks⟩ | ⟨old, hold, -⟩)
        · refine ⟨asked last, ⟨hsome, fun call hmem hrefused => ?_⟩, rfl, rfl⟩
          obtain ⟨hgateway, hoif⟩ := hasks call hmem hrefused
          exact asked_eq hgateway hoif
        · exact absurd hold nofun
  | cons old others =>
      cases others with
      | nil =>
          simp only [OnlyDefault, defaults_of_one hsent hdefaults, Settled, hdefaults]
          constructor
          · rintro ⟨route, ⟨rfl, hasks⟩, hgateway, hoif⟩
            exact Or.inr ⟨old, rfl, hgateway, hoif, hasks⟩
          · rintro (⟨hnone, -⟩ | ⟨route, hroute, hgateway, hoif, hasks⟩)
            · exact absurd hnone nofun
            · obtain rfl := List.singleton_inj.mp hroute
              exact ⟨old, ⟨rfl, hasks⟩, hgateway, hoif⟩
      | cons another others =>
          apply iff_of_false
          · exact not_onlyDefault_of_two hsent (by rw [hdefaults]; simp)
          · rintro (⟨hnone, -⟩ | ⟨route, hroute, -⟩)
            · exact absurd (hdefaults.symm.trans hnone) nofun
            · exact absurd (hdefaults.symm.trans hroute) nofun

/-- After calls that all report success there is one default route, through the
last call's gateway and interface, exactly if only one was ever asked for. -/
theorem onlyDefault_iff (kernel : Kernel) (table : List Route) {before : List RouteCall}
    {last : RouteCall} (hsent : ∀ call ∈ before ++ [last], call.sent = true) :
    OnlyDefault (tableAfter kernel table (before ++ [last])) last.gateway last.ifaceIndex ↔
      Settled table (before ++ [last]) last :=
  onlyDefault_tableAfter_iff hsent

/-- A kernel that keeps a new route in front of those it has. -/
def frontKernel : Kernel where
  handle table request refused :=
    if request.Creates ∧ refused = false ∧ request.route ∉ table then request.route :: table
    else table
  refuses _ _ := if_neg fun h => absurd h.2.1 (by decide)
  identical _ _ _ hmem := if_neg fun h => h.2.2 hmem
  adds _ _ hcreates hmem := List.Perm.of_eq (if_pos ⟨hcreates, rfl, hmem⟩)

def gatewayCall (gateway : InAddr) : RouteCall := ⟨gateway, 2, true, false⟩

/-- A gateway that is configured twice, as by a renewal. -/
theorem onlyDefault_renewed :
    OnlyDefault (tableAfter frontKernel [] ([gatewayCall 7] ++ [gatewayCall 7])) 7 2 :=
  have hsent : ∀ call ∈ [gatewayCall 7] ++ [gatewayCall 7], call.sent = true := by decide
  (onlyDefault_iff frontKernel [] hsent).mpr
    (Or.inl ⟨rfl, ⟨gatewayCall 7, List.mem_cons_self, rfl⟩, by simp [AllAsk, gatewayCall]⟩)

/-- The route through the old gateway is left when the gateway changes. -/
theorem changed_gateway_left : ¬ ∀ (kernel : Kernel) (table : List Route)
    (before : List RouteCall) (last : RouteCall), (∀ call ∈ before ++ [last], call.sent = true) →
      OnlyDefault (tableAfter kernel table (before ++ [last])) last.gateway last.ifaceIndex := by
  intro h
  have hcalls : ∀ call ∈ [gatewayCall 7] ++ [gatewayCall 8], call.sent = true := by decide
  obtain ⟨route, honly, -⟩ := h frontKernel [] [gatewayCall 7] (gatewayCall 8) hcalls
  have hlength : (defaults (tableAfter frontKernel []
      ([gatewayCall 7] ++ [gatewayCall 8]))).length = 2 := by decide +kernel
  rw [honly] at hlength
  exact absurd hlength (by simp)

section Host

variable (host : Host) (gateway : InAddr) (ifaceIndex : UInt32) (calls : SystemCalls)

/-- The main table that a host stands for: the routes that the client asked for. -/
def routesOf (host : Host) (ifaceIndex : UInt32) : List Route :=
  host.defaultRoutes.map fun gateway => asked ⟨gateway, ifaceIndex, true, false⟩

theorem asked_mem_routesOf_iff (sent refused : Bool) :
    asked ⟨gateway, ifaceIndex, sent, refused⟩ ∈ routesOf host ifaceIndex ↔
      gateway ∈ host.defaultRoutes := by
  constructor
  · intro hmem
    obtain ⟨other, hother, heq⟩ := List.mem_map.mp hmem
    have hgateway : other = gateway := congrArg Route.gateway heq
    exact hgateway ▸ hother
  · exact fun hmem => List.mem_map.mpr ⟨gateway, hmem, rfl⟩

/-- The host's routes are the main table's, whatever order the kernel keeps them in. -/
theorem setDefaultGateway_host (kernel : Kernel) :
    (setDefaultGateway kernel (routesOf host ifaceIndex)
        ⟨gateway, ifaceIndex, calls.sendRoute, !calls.takeRoute⟩).1 =
      (host.setDefaultGateway gateway calls).1 ∧
    (setDefaultGateway kernel (routesOf host ifaceIndex)
        ⟨gateway, ifaceIndex, calls.sendRoute, !calls.takeRoute⟩).2.Perm
      (routesOf (host.setDefaultGateway gateway calls).2 ifaceIndex) := by
  rw [setDefaultGateway, Host.setDefaultGateway]
  cases calls.sendRoute with
  | false => exact ⟨rfl, List.Perm.refl _⟩
  | true =>
      rw [if_pos rfl, if_pos rfl]
      cases calls.takeRoute with
      | false =>
          rw [if_neg fun h => absurd h.1 Bool.false_ne_true]
          exact ⟨rfl, List.Perm.of_eq (kernel.refuses _ _)⟩
      | true =>
          have hcreates := gatewayRequest_creates gateway ifaceIndex
          have hmem := asked_mem_routesOf_iff host gateway ifaceIndex true false
          by_cases hknown : gateway ∈ host.defaultRoutes
          · rw [if_neg fun h => h.2 hknown]
            exact ⟨rfl, List.Perm.of_eq (kernel.identical _ _ hcreates (hmem.mpr hknown))⟩
          · rw [if_pos ⟨rfl, hknown⟩]
            have hadded : routesOf { host with defaultRoutes := host.defaultRoutes ++ [gateway] }
                ifaceIndex = routesOf host ifaceIndex ++
                  [asked ⟨gateway, ifaceIndex, true, false⟩] := List.map_append
            refine ⟨rfl, (kernel.adds _ _ hcreates fun h => hknown (hmem.mp h)).trans ?_⟩
            rw [hadded]
            exact (List.perm_append_singleton _ _).symm

end Host

end Router

end AndroidX86Tv.Dhcp
