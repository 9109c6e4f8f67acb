import AndroidX86Tv.Dhcp.DhcpInfo

/-!
# Interface, routes and properties (client/interface.cpp, client/router.cpp)

What the client changes outside its own members, and the outcome of each system
call as an input.

## Implementation notes

What the kernel makes of a request is a parameter, a member of the host. The client
relies on what `NetKernel.Documented` says of it and on no more; `linuxKernel` is one
that does as Linux does.
-/

namespace AndroidX86Tv.Dhcp

/-- The `vendor.net.<if>.*` properties; none where the text is empty. -/
@[ext]
structure NetProperties where
  gw : Option InAddr
  dns : Fin 4 → Option InAddr

/-- An IPv4 address of the interface, or one that is asked for. -/
structure IfAddress where
  address : InAddr
  prefixLength : Nat
  broadcast : InAddr
  deriving DecidableEq

/-- What the kernel does to the interface. -/
structure NetKernel where
  /-- The addresses after an `RTM_NEWADDR` request that is carried out. -/
  newAddress : List IfAddress → IfAddress → List IfAddress
  /-- The default routes that are left when the interface goes down. -/
  linkDown : List InAddr → List InAddr

/-- A request for an address adds that one and no other, and an interface that goes down
can only lose routes. -/
structure NetKernel.Documented (kernel : NetKernel) : Prop where
  adds : ∀ held asked, asked.address ≠ 0 → ∃ got ∈ kernel.newAddress held asked,
    got.address = asked.address ∧ got.prefixLength = asked.prefixLength
  only : ∀ held asked, ∀ got ∈ kernel.newAddress held asked, got ∈ held ∨ got = asked
  drops : ∀ routes, (kernel.linkDown routes).Sublist routes

@[ext]
structure Host where
  kernel : NetKernel
  up : Bool
  mtu : UInt16
  /-- The IPv4 addresses of the interface, oldest first. -/
  addresses : List IfAddress
  /-- The gateways of the default routes through the interface, oldest first. -/
  defaultRoutes : List InAddr
  properties : NetProperties

/-- How an `RTM_NEWADDR` request ends: done and acknowledged, refused or not
sent, or without a readable answer, whether it was carried out or not. -/
inductive NetlinkReply where
  | done
  | refused
  | lost (applied : Bool)
  deriving DecidableEq

/-- The outcomes of the system calls of one pass. -/
structure SystemCalls where
  getFlags : Bool
  setFlags : Bool
  setMtu : Bool
  setGw : Bool
  setDns : Fin 4 → Bool
  newAddress : NetlinkReply
  sendRoute : Bool
  /-- Whether the kernel takes the route; the client does not read the reply. -/
  takeRoute : Bool

/-- The operations of `Interface` succeed. -/
structure SystemCalls.InterfaceWorks (calls : SystemCalls) : Prop where
  getFlags : calls.getFlags = true
  setFlags : calls.setFlags = true
  setMtu : calls.setMtu = true
  newAddress : calls.newAddress = .done

namespace Host

/-- `__builtin_popcount`. -/
def popcount (v : UInt32) : Nat := ((List.range 32).filter v.toNat.testBit).length

/-- What the kernel does when the up flag changes. -/
def toggled (host : Host) (shouldBeUp : Bool) : Host :=
  { host with
    up := shouldBeUp
    defaultRoutes :=
      if shouldBeUp then host.defaultRoutes else host.kernel.linkDown host.defaultRoutes }

def setInterfaceUp (host : Host) (shouldBeUp : Bool) (calls : SystemCalls) : Bool × Host :=
  if calls.getFlags then
    if host.up = shouldBeUp then (true, host)
    else if calls.setFlags then (true, host.toggled shouldBeUp)
    else (false, host)
  else (false, host)

def bringUp (host : Host) (calls : SystemCalls) : Bool × Host := host.setInterfaceUp true calls

def bringDown (host : Host) (calls : SystemCalls) : Bool × Host := host.setInterfaceUp false calls

def setMtu (host : Host) (mtu : UInt16) (calls : SystemCalls) : Host :=
  if calls.setMtu then { host with mtu := mtu } else host

/-- What `setAddress` asks for. -/
def asked (address subnetMask : InAddr) : IfAddress where
  address := address
  prefixLength := popcount subnetMask
  broadcast := address ||| ~~~subnetMask

def withAddress (host : Host) (address subnetMask : InAddr) : Host :=
  { host with addresses := host.kernel.newAddress host.addresses (asked address subnetMask) }

def setAddress (host : Host) (address subnetMask : InAddr) (calls : SystemCalls) : Bool × Host :=
  match calls.newAddress with
  | .done => (true, host.withAddress address subnetMask)
  | .refused => (false, host)
  | .lost true => (false, host.withAddress address subnetMask)
  | .lost false => (false, host)

/-- `setDefaultGateway` reports whether the request was sent. -/
def setDefaultGateway (host : Host) (gateway : InAddr) (calls : SystemCalls) : Bool × Host :=
  if calls.sendRoute then
    if calls.takeRoute ∧ gateway ∉ host.defaultRoutes then
      (true, { host with defaultRoutes := host.defaultRoutes ++ [gateway] })
    else (true, host)
  else (false, host)

/-- The `property_set` calls of `configureDhcp`. -/
def setProperties (host : Host) (info : DhcpInfo) (calls : SystemCalls) : Host :=
  { host with
    properties :=
      { gw := if calls.setGw then some info.gateway else host.properties.gw
        dns := fun k =>
          if calls.setDns k then if info.dns k ≠ 0 then some (info.dns k) else none
          else host.properties.dns k } }

/-- Where `configureDhcp` stops once it has started to change the host. -/
inductive Exit where
  | notUp
  | noAddress
  | noGateway
  | configured
  deriving DecidableEq

/-- The MTU and the properties; a failure of either is not fatal. -/
def setLink (host : Host) (info : DhcpInfo) (calls : SystemCalls) : Host :=
  (if info.mtu ≠ 0 then host.setMtu info.mtu calls else host).setProperties info calls

/-- The default gateway, left out under `ClientOption::NoGateway`. -/
def route (host : Host) (info : DhcpInfo) (skipGateway : Bool) (calls : SystemCalls) :
    Exit × Host :=
  if skipGateway then (.configured, host)
  else
    match host.setDefaultGateway info.gateway calls with
    | (false, host) => (.noGateway, host)
    | (true, host) => (.configured, host)

/-- The second half of `configureDhcp`, from `mInterface.bringUp()` on. -/
def configure (host : Host) (info : DhcpInfo) (skipGateway : Bool) (calls : SystemCalls) :
    Exit × Host :=
  match host.bringUp calls with
  | (false, host) => (.notUp, host)
  | (true, host) =>
      match (host.setLink info calls).setAddress info.offeredAddress info.subnetMask calls with
      | (false, host) => (.noAddress, host)
      | (true, host) => host.route info skipGateway calls

/-- `DhcpClient::haltNetwork`. -/
def halt (host : Host) (calls : SystemCalls) : Host :=
  ((host.setAddress 0 0 calls).2.bringDown calls).2

/-- The interface down, whether it was up before or not. -/
def down (host : Host) : Host := if host.up then host.toggled false else host

section

variable {host : Host} {calls : SystemCalls}

@[simp] theorem down_up : host.down.up = false := by
  rw [down]
  cases hup : host.up with
  | true => rfl
  | false => exact hup

@[simp] theorem down_addresses : host.down.addresses = host.addresses := by
  rw [down]
  split_ifs
  · rfl
  · rfl

theorem bringUp_works (h : calls.InterfaceWorks) :
    host.bringUp calls = (true, { host with up := true }) := by
  rw [bringUp, setInterfaceUp, if_pos h.getFlags]
  split
  · next heq => rw [← heq]
  · rw [if_pos h.setFlags]
    rfl

theorem bringDown_works (h : calls.InterfaceWorks) :
    host.bringDown calls = (true, host.down) := by
  rw [bringDown, setInterfaceUp, if_pos h.getFlags, down]
  cases host.up with
  | true => exact if_pos h.setFlags
  | false => rfl

theorem setAddress_works (h : calls.InterfaceWorks) (address subnetMask : InAddr) :
    host.setAddress address subnetMask calls = (true, host.withAddress address subnetMask) := by
  rw [setAddress, h.newAddress]

theorem halt_works (h : calls.InterfaceWorks) :
    host.halt calls = (host.withAddress 0 0).down := by
  rw [halt, setAddress_works h, bringDown_works h]

theorem setLink_up (host : Host) (info : DhcpInfo) (calls : SystemCalls) :
    (host.setLink info calls).up = host.up := by
  rw [setLink, setMtu]
  split_ifs <;> rfl

/-- The router changes the routes only. -/
theorem route_cases (host : Host) (info : DhcpInfo) (skipGateway : Bool) (calls : SystemCalls) :
    ((host.route info skipGateway calls).1 = .configured ∨
        (host.route info skipGateway calls).1 = .noGateway) ∧
      ∃ routes, (host.route info skipGateway calls).2 = { host with defaultRoutes := routes } := by
  rw [route, setDefaultGateway]
  split_ifs
  · exact ⟨Or.inl rfl, _, rfl⟩
  · exact ⟨Or.inl rfl, _, rfl⟩
  · exact ⟨Or.inl rfl, host.defaultRoutes, rfl⟩
  · exact ⟨Or.inr rfl, host.defaultRoutes, rfl⟩

theorem setDefaultGateway_sent (host : Host) (gateway : InAddr) (calls : SystemCalls) :
    (host.setDefaultGateway gateway calls).1 = calls.sendRoute := by
  rw [setDefaultGateway]
  cases calls.sendRoute with
  | true =>
      rw [if_pos rfl]
      split_ifs
      · rfl
      · rfl
  | false => rfl

theorem route_configured_iff (host : Host) (info : DhcpInfo) (skipGateway : Bool)
    (calls : SystemCalls) : (host.route info skipGateway calls).1 = .configured ↔
      skipGateway = true ∨ calls.sendRoute = true := by
  rw [← setDefaultGateway_sent host info.gateway calls, route]
  cases skipGateway with
  | true => simp
  | false =>
      cases host.setDefaultGateway info.gateway calls with
      | mk sent after =>
          cases sent with
          | true => simp
          | false => simp

theorem setLink_addresses (host : Host) (info : DhcpInfo) (calls : SystemCalls) :
    (host.setLink info calls).addresses = host.addresses := by
  rw [setLink, setMtu]
  split_ifs <;> rfl

section Kernel

theorem setInterfaceUp_kernel (host : Host) (shouldBeUp : Bool) (calls : SystemCalls) :
    (host.setInterfaceUp shouldBeUp calls).2.kernel = host.kernel := by
  unfold setInterfaceUp
  split_ifs <;> rfl

theorem setAddress_kernel (host : Host) (address subnetMask : InAddr) (calls : SystemCalls) :
    (host.setAddress address subnetMask calls).2.kernel = host.kernel := by
  unfold setAddress
  split <;> rfl

theorem setLink_kernel (host : Host) (info : DhcpInfo) (calls : SystemCalls) :
    (host.setLink info calls).kernel = host.kernel := by
  rw [setLink, setMtu]
  split_ifs <;> rfl

theorem route_kernel (host : Host) (info : DhcpInfo) (skipGateway : Bool) (calls : SystemCalls) :
    (host.route info skipGateway calls).2.kernel = host.kernel := by
  obtain ⟨-, routes, hroutes⟩ := route_cases host info skipGateway calls
  rw [hroutes]

/-- No operation replaces the kernel. -/
theorem configure_kernel (host : Host) (info : DhcpInfo) (skipGateway : Bool)
    (calls : SystemCalls) : (host.configure info skipGateway calls).2.kernel = host.kernel := by
  rw [configure, bringUp]
  cases hup : host.setInterfaceUp true calls with
  | mk up raised =>
      have hraised : raised.kernel = host.kernel := by
        rw [← setInterfaceUp_kernel host true calls, hup]
      cases up with
      | false => exact hraised
      | true =>
          cases haddress : (raised.setLink info calls).setAddress info.offeredAddress
              info.subnetMask calls with
          | mk ok addressed =>
              have haddressed : addressed.kernel = host.kernel := by
                have hkept := setAddress_kernel (raised.setLink info calls) info.offeredAddress
                  info.subnetMask calls
                rw [haddress, setLink_kernel, hraised] at hkept
                exact hkept
              cases ok with
              | false =>
                  simp only [haddress]
                  exact haddressed
              | true =>
                  simp only [haddress]
                  exact (route_kernel addressed info skipGateway calls).trans haddressed

theorem halt_kernel (host : Host) (calls : SystemCalls) :
    (host.halt calls).kernel = host.kernel := by
  rw [halt, bringDown, setInterfaceUp_kernel, setAddress_kernel]

end Kernel

/-- Where the interface works, `configure` gets at least to the gateway, with the
interface up and the offered address asked for. -/
theorem configure_works (h : calls.InterfaceWorks) {info : DhcpInfo} {skipGateway : Bool}
    {exit : Exit} {host' : Host} (hhost : host.configure info skipGateway calls = (exit, host')) :
    (exit = .configured ∨ exit = .noGateway) ∧ host'.up = true ∧
      host'.addresses = host.kernel.newAddress host.addresses
        (asked info.offeredAddress info.subnetMask) := by
  simp only [configure, bringUp_works h, setAddress_works h] at hhost
  obtain ⟨hexit, routes, hroute⟩ := route_cases ((({ host with up := true } : Host).setLink info
    calls).withAddress info.offeredAddress info.subnetMask) info skipGateway calls
  rw [hhost] at hexit hroute
  rw [show host' = _ from hroute]
  refine ⟨hexit, setLink_up _ _ _, ?_⟩
  simp only [withAddress, setLink_kernel, setLink_addresses]

/-- Where the interface works, `configure` stops at the gateway if its route
cannot be sent, and nowhere else. -/
theorem configure_noGateway_iff (h : calls.InterfaceWorks) {info : DhcpInfo} {skipGateway : Bool}
    {exit : Exit} {host' : Host} (hhost : host.configure info skipGateway calls = (exit, host')) :
    exit = .noGateway ↔ skipGateway = false ∧ calls.sendRoute = false := by
  simp only [configure, bringUp_works h, setAddress_works h] at hhost
  obtain ⟨hexit, -⟩ := route_cases ((({ host with up := true } : Host).setLink info
    calls).withAddress info.offeredAddress info.subnetMask) info skipGateway calls
  have hconfigured := route_configured_iff ((({ host with up := true } : Host).setLink info
    calls).withAddress info.offeredAddress info.subnetMask) info skipGateway calls
  rw [hhost] at hexit hconfigured
  rw [← Bool.not_eq_true, ← Bool.not_eq_true, ← not_or, ← hconfigured]
  rcases hexit with rfl | rfl
  · exact iff_of_false nofun fun hno => hno rfl
  · exact iff_of_true rfl nofun

end

end Host

/-- Linux: the address 0.0.0.0 is acknowledged and nothing is done, an address that is
there already stays as it is, any other is added beside the old ones; and an interface
that goes down loses its routes, not its addresses. -/
def linuxKernel : NetKernel where
  newAddress held asked :=
    if asked.address = 0 ∨ ∃ old ∈ held, old.address = asked.address ∧
        old.prefixLength = asked.prefixLength then held
    else held ++ [asked]
  linkDown _ := []

theorem linuxKernel_documented : linuxKernel.Documented where
  adds held asked hne := by
    simp only [linuxKernel, hne, false_or]
    split_ifs with hold
    · exact hold
    · exact ⟨asked, List.mem_append_right _ (List.mem_singleton_self asked), rfl, rfl⟩
  only held asked got hgot := by
    simp only [linuxKernel] at hgot
    split_ifs at hgot
    · exact Or.inl hgot
    · exact (List.mem_append.mp hgot).imp id List.mem_singleton.mp
  drops := List.nil_sublist

end AndroidX86Tv.Dhcp
