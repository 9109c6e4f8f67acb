import AndroidX86Tv.Dhcp.Client
import AndroidX86Tv.Dhcp.RouterAttributes

/-!
# The request for a gateway (client/router.cpp)

`Router::setDefaultGateway` builds an `RTM_NEWROUTE` request and sends it, without waiting
for an answer. For a kernel that reads it by the rules of netlink its calls make of the
main table what `Host.setDefaultGateway` says, with the routes of others left alone.

## Implementation notes

What the kernel does with a request that it has read is that of `Kernel`, so that only the
bytes are new here.
-/

namespace AndroidX86Tv.Dhcp

open ByteMemory EventHistory

def sizeofRtmsg : Nat := 12

/-- How a request of the length is read: the header, the message, and the attributes
behind them. -/
def readRouteRequest (request : Memory) (length : Nat) : Option RouteRequest :=
  if offsetofBuf sizeofRtmsg ≤ length then
    some
      { nlmsgType := load16 request 4
        nlmsgFlags := load16 request 6
        msg :=
          { rtmFamily := request 16
            rtmDstLen := request 17
            rtmTable := request 20
            rtmProtocol := request 21
            rtmScope := request 22
            rtmType := request 23 }
        attributes :=
          (walkAttributes request (attributeArea sizeofRtmsg) length).map fun a =>
            (a.type, load32 (ofBytes a.data) 0) }
  else none

/-- A kernel with what it makes of the bytes of a request. -/
structure RouteKernel extends Kernel where
  receive : List Route → Memory → Nat → Bool → List Route
  reads : ∀ table bytes length request refused, readRouteRequest bytes length = some request →
    receive table bytes length refused = handle table request refused

namespace Router

/-- The request without its attributes. -/
def gatewayHeader : Memory :=
  let request := store (fun _ => 0) 0 (bytes32 (UInt32.ofNat (offsetofBuf sizeofRtmsg)))
  let request := store request 4 (bytes16 rtmNewRoute)
  let request := store request 6 (bytes16 (nlmFRequest ||| nlmFCreate))
  let request := store request 16 [afInet]
  let request := store request 17 [0]
  let request := store request 20 [rtTableMain]
  let request := store request 21 [rtprotBoot]
  let request := store request 22 [rtScopeUniverse]
  store request 23 [rtnUnicast]

/-- The attributes that `setDefaultGateway` adds, in their order. -/
def gatewayAttributes (gateway : InAddr) (ifaceIndex : UInt32) : List RtAttr :=
  [⟨rtaGateway, bytes32 gateway⟩, ⟨rtaOif, bytes32 ifaceIndex⟩]

def gatewayBytes (gateway : InAddr) (ifaceIndex : UInt32) : Memory :=
  addRouterAttributes sizeofRtmsg gatewayHeader (gatewayAttributes gateway ifaceIndex)

/-- `Router::setDefaultGateway` with the bytes that it sends. -/
def sendDefaultGateway (kernel : RouteKernel) (table : List Route) (call : RouteCall) :
    Bool × List Route :=
  let request := gatewayBytes call.gateway call.ifaceIndex
  if call.sent then
    (true, kernel.receive table request (nlmsgLen request).toNat call.refused)
  else (false, table)

section Request

variable (gateway : InAddr) (ifaceIndex : UInt32)

theorem gatewayAttributes_extent : extent (gatewayAttributes gateway ifaceIndex) = 16 := by
  simp [gatewayAttributes, extent, RtAttr.size, sizeofRtattr, align4]

theorem gatewayBytes_built :
    Built sizeofRtmsg gatewayHeader (gatewayBytes gateway ifaceIndex)
      (gatewayAttributes gateway ifaceIndex) := by
  have hextent := gatewayAttributes_extent gateway ifaceIndex
  have harea : attributeArea sizeofRtmsg = 28 := rfl
  exact addRouterAttributes_built (by decide +kernel) (by omega) (by omega)

/-- The header and the message stand before the attributes. -/
theorem gatewayBytes_header {i : Nat} (hfour : 4 ≤ i) (hi : i < 28) :
    gatewayBytes gateway ifaceIndex i = gatewayHeader i :=
  (gatewayBytes_built gateway ifaceIndex).frame i hfour (Or.inl hi)

/-- The request is read as what it was built from. -/
theorem readRouteRequest_gatewayBytes :
    readRouteRequest (gatewayBytes gateway ifaceIndex)
        (nlmsgLen (gatewayBytes gateway ifaceIndex)).toNat =
      some (gatewayRequest gateway ifaceIndex) := by
  have hextent := gatewayAttributes_extent gateway ifaceIndex
  have hbuilt := gatewayBytes_built gateway ifaceIndex
  have hlength : (nlmsgLen (gatewayBytes gateway ifaceIndex)).toNat = 28 + 16 :=
    hbuilt.length.trans (congrArg (28 + ·) hextent)
  have hheader : ∀ i, 4 ≤ i → i < 28 → gatewayBytes gateway ifaceIndex i = gatewayHeader i :=
    fun i hfour hi => gatewayBytes_header gateway ifaceIndex hfour hi
  have htype : load16 (gatewayBytes gateway ifaceIndex) 4 = load16 gatewayHeader 4 :=
    load16_congr fun k hk => hheader (4 + k) (by omega) (by omega)
  have hflags : load16 (gatewayBytes gateway ifaceIndex) 6 = load16 gatewayHeader 6 :=
    load16_congr fun k hk => hheader (6 + k) (by omega) (by omega)
  have hwalk := hbuilt.walk (by omega)
  have hlong : offsetofBuf sizeofRtmsg ≤ (nlmsgLen (gatewayBytes gateway ifaceIndex)).toNat := by
    rw [hlength]
    decide
  rw [readRouteRequest, if_pos hlong, hwalk, htype, hflags, hheader 16 (by decide) (by decide),
    hheader 17 (by decide) (by decide), hheader 20 (by decide) (by decide),
    hheader 21 (by decide) (by decide), hheader 22 (by decide) (by decide),
    hheader 23 (by decide) (by decide)]
  simp only [gatewayAttributes, List.map_cons, List.map_nil, load32_ofBytes]
  rfl

/-- The bytes ask for what the request says. -/
theorem sendDefaultGateway_eq (kernel : RouteKernel) (table : List Route) (call : RouteCall) :
    sendDefaultGateway kernel table call = setDefaultGateway kernel.toKernel table call := by
  simp only [sendDefaultGateway, setDefaultGateway]
  rw [kernel.reads _ _ _ _ _ (readRouteRequest_gatewayBytes call.gateway call.ifaceIndex)]

end Request

section Host

variable {kernel : RouteKernel} {ifaceIndex : UInt32} {others table : List Route} {host : Host}

/-- The call of the router that a call for the host comes down to. -/
def callOf (ifaceIndex : UInt32) (gateway : InAddr) (calls : SystemCalls) : RouteCall :=
  ⟨gateway, ifaceIndex, calls.sendRoute, !calls.takeRoute⟩

/-- The main table has the host's default routes and those of others, among which there
is none that the client could ask for. -/
structure HasRoutes (ifaceIndex : UInt32) (others table : List Route) (host : Host) : Prop where
  perm : table.Perm (others ++ routesOf host ifaceIndex)
  foreign : ∀ gateway, asked ⟨gateway, ifaceIndex, true, false⟩ ∉ others

theorem HasRoutes.mem_iff (h : HasRoutes ifaceIndex others table host) (gateway : InAddr) :
    asked ⟨gateway, ifaceIndex, true, false⟩ ∈ table ↔ gateway ∈ host.defaultRoutes := by
  rw [h.perm.mem_iff, List.mem_append]
  exact (or_iff_right (h.foreign gateway)).trans
    (asked_mem_routesOf_iff host gateway ifaceIndex true false)

/-- A call does to the main table what it does to the host. -/
theorem HasRoutes.step (kernel : RouteKernel) (h : HasRoutes ifaceIndex others table host)
    (gateway : InAddr) (calls : SystemCalls) :
    (sendDefaultGateway kernel table (callOf ifaceIndex gateway calls)).1 =
        (host.setDefaultGateway gateway calls).1 ∧
      HasRoutes ifaceIndex others
        (sendDefaultGateway kernel table (callOf ifaceIndex gateway calls)).2
        (host.setDefaultGateway gateway calls).2 := by
  rw [sendDefaultGateway_eq, setDefaultGateway, Host.setDefaultGateway, callOf]
  cases calls.sendRoute with
  | false => exact ⟨rfl, h⟩
  | true =>
      rw [if_pos rfl, if_pos rfl]
      cases calls.takeRoute with
      | false =>
          rw [if_neg fun htakes => absurd htakes.1 Bool.false_ne_true]
          refine ⟨rfl, ?_, h.foreign⟩
          exact (List.Perm.of_eq (kernel.refuses _ _)).trans h.perm
      | true =>
          have hcreates := gatewayRequest_creates gateway ifaceIndex
          by_cases hknown : gateway ∈ host.defaultRoutes
          · rw [if_neg fun htakes => htakes.2 hknown]
            have hmem := (h.mem_iff gateway).mpr hknown
            refine ⟨rfl, ?_, h.foreign⟩
            exact (List.Perm.of_eq (kernel.identical _ _ hcreates hmem)).trans h.perm
          · rw [if_pos ⟨rfl, hknown⟩]
            have hmem := (h.mem_iff gateway).not.mpr hknown
            have hadded : routesOf { host with defaultRoutes := host.defaultRoutes ++ [gateway] }
                ifaceIndex = routesOf host ifaceIndex ++
                  [asked ⟨gateway, ifaceIndex, true, false⟩] := List.map_append
            refine ⟨rfl, ?_, h.foreign⟩
            rw [hadded, ← List.append_assoc]
            refine (kernel.adds _ _ hcreates hmem).trans ?_
            exact (h.perm.cons _).trans (List.perm_append_singleton _ _).symm

/-- A call of the router, with the results of those before it. -/
def routerCall (kernel : RouteKernel) (ifaceIndex : UInt32) (s : List Bool × List Route)
    (c : InAddr × SystemCalls) : List Bool × List Route :=
  let (result, table) := sendDefaultGateway kernel s.2 (callOf ifaceIndex c.1 c.2)
  (s.1 ++ [result], table)

/-- The same call for the host. -/
def hostCall (s : List Bool × Host) (c : InAddr × SystemCalls) : List Bool × Host :=
  let (result, host) := s.2.setDefaultGateway c.1 c.2
  (s.1 ++ [result], host)

/-- Whatever calls are made, and whichever of them are not sent or refused, the results
are those that the host says, and so is the main table, beside the routes of others. -/
theorem routerCalls_refine (kernel : RouteKernel) (results : List Bool)
    (h : HasRoutes ifaceIndex others table host) (calls : List (InAddr × SystemCalls)) :
    (run (routerCall kernel ifaceIndex) (results, table) calls).1 =
        (run hostCall (results, host) calls).1 ∧
      HasRoutes ifaceIndex others
        (run (routerCall kernel ifaceIndex) (results, table) calls).2
        (run hostCall (results, host) calls).2 := by
  induction calls generalizing results table host with
  | nil => exact ⟨rfl, h⟩
  | cons c calls ih =>
      obtain ⟨hresult, hroutes⟩ := h.step kernel c.1 c.2
      rw [run_cons, run_cons]
      simp only [routerCall, hostCall, hresult]
      exact ih _ hroutes

/-- A kernel that carries out what it can read, and keeps a new route in front. -/
def frontRoutes : RouteKernel where
  toKernel := frontKernel
  receive table bytes length refused :=
    (readRouteRequest bytes length).elim table fun request =>
      frontKernel.handle table request refused
  reads table bytes length request refused hread := by rw [hread]; rfl

/-- The default route through another interface. -/
def foreignRoute : Route := asked ⟨7, 3, true, false⟩

/-- A gateway that is taken, one that is refused, and the first one again. -/
def renewedGateway : List (InAddr × SystemCalls) :=
  [(7, allCallsWork), (8, { allCallsWork with takeRoute := false }), (7, allCallsWork)]

theorem routerCalls_refine_foreign :
    (run (routerCall frontRoutes 2) ([], [foreignRoute]) renewedGateway).1 =
        (run hostCall ([], bareHost) renewedGateway).1 ∧
      HasRoutes 2 [foreignRoute]
        (run (routerCall frontRoutes 2) ([], [foreignRoute]) renewedGateway).2
        (run hostCall ([], bareHost) renewedGateway).2 :=
  have hforeign : ∀ gateway, asked ⟨gateway, 2, true, false⟩ ∉ [foreignRoute] := by
    intro gateway hmem
    have hoif : (2 : UInt32) = 3 := congrArg Route.oif (List.mem_singleton.mp hmem)
    exact absurd hoif (by decide)
  routerCalls_refine frontRoutes [] ⟨List.Perm.refl _, hforeign⟩ renewedGateway

end Host

end Router

end AndroidX86Tv.Dhcp
