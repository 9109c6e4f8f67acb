import Mathlib.Data.List.Nodup
import AndroidX86Tv.Dhcp.Handshake

/-!
# The program (client/main.cpp) and its default routes

The command line is a list of parameters, `-i <interface>` and `--no-gateway`. Once the
client is initialised it runs; the default routes it leaves over a run come from the
leases it took, and there are none under `--no-gateway`.
-/

namespace AndroidX86Tv.Dhcp

open EventHistory

/-- Why `main` ends with its usage. -/
inductive Refusal where
  | tooFew
  | missingArgument
  | unknownParameter (arg : String)
  | noInterface
  deriving DecidableEq

/-- The loop over `argv`, entered with the interface name and the options so far. -/
def readArguments : List String → Option String → UInt32 →
    Except Refusal (Option String × UInt32)
  | [], interfaceName, options => .ok (interfaceName, options)
  | arg :: rest, interfaceName, options =>
      if arg = "-i" then
        match rest with
        | [] => .error .missingArgument
        | name :: rest => readArguments rest (some name) options
      else if arg = "--no-gateway" then
        readArguments rest interfaceName (options ||| noGateway)
      else .error (.unknownParameter arg)

/-- The arguments behind the name of the program. -/
def commandLine (args : List String) : Except Refusal (String × UInt32) :=
  if args.length + 1 < 3 then .error .tooFew
  else
    match readArguments args none 0 with
    | .error refusal => .error refusal
    | .ok (none, _) => .error .noInterface
    | .ok (some interfaceName, options) => .ok (interfaceName, options)

/-- The outcomes of the system calls of `DhcpClient::init`. -/
structure InitCalls where
  interfaceSocket : Bool
  getIndex : Bool
  getMacAddress : Bool
  calls : SystemCalls
  routerSocket : Bool
  openSocket : Bool
  bindSocket : Bool

/-- `Interface::init`. -/
def Host.initInterface (host : Host) (a : InitCalls) : Bool × Host :=
  if a.interfaceSocket && a.getIndex && a.getMacAddress then
    match host.bringUp a.calls with
    | (false, host) => (false, host)
    | (true, host) => host.setAddress 0 0 a.calls
  else (false, host)

/-- `DhcpClient::init`. -/
def Host.init (host : Host) (a : InitCalls) : Bool × Host :=
  match host.initInterface a with
  | (false, host) => (false, host)
  | (true, host) => (a.routerSocket && a.openSocket && a.bindSocket, host)

/-- How far the program gets. -/
inductive Program where
  | usage (refusal : Refusal)
  | notInitialised (host : Host)
  | runs (interfaceName : String) (client : Client)

/-- `main`, on the interfaces of a machine by their names. -/
def main (args : List String) (interfaces : String → Mac × Host) (a : InitCalls)
    (answers : List Answers) : Program :=
  match commandLine args with
  | .error refusal => .usage refusal
  | .ok (interfaceName, options) =>
      match (interfaces interfaceName).2.init a with
      | (false, host) => .notInitialised host
      | (true, host) =>
          .runs interfaceName (run Client.step
            { Client.fresh options (interfaces interfaceName).1 host with host := host } answers)

/-- A parameter of a command line. -/
inductive Parameter where
  | interface (name : String)
  | noGateway
  deriving DecidableEq

def Parameter.args : Parameter → List String
  | .interface name => ["-i", name]
  | .noGateway => ["--no-gateway"]

/-- The interface of a parameter. -/
def Parameter.name : Parameter → Option String
  | .interface name => some name
  | .noGateway => none

/-- The interface that is named last. -/
def interfaceOf (params : List Parameter) : Option String :=
  (params.filterMap Parameter.name).getLast?

def optionsOf (params : List Parameter) : UInt32 := if .noGateway ∈ params then noGateway else 0

/-- The system calls that `init` needs: it does not set the flags of an interface
that is up. -/
structure InitCalls.Work (a : InitCalls) (host : Host) : Prop where
  sockets : a.interfaceSocket = true ∧ a.routerSocket = true ∧ a.openSocket = true ∧
    a.bindSocket = true
  identity : a.getIndex = true ∧ a.getMacAddress = true
  up : a.calls.getFlags = true ∧ (host.up = true ∨ a.calls.setFlags = true)
  address : a.calls.newAddress = .done

section Arguments

theorem noGateway_or (b : Prop) [Decidable b] (options : UInt32) :
    (options ||| noGateway) ||| (if b then noGateway else 0) = options ||| noGateway := by
  split_ifs
  · rw [UInt32.or_assoc, UInt32.or_self]
  · exact UInt32.or_zero

/-- The parameters of a command line are read in their order. -/
theorem readArguments_params (params : List Parameter) (interfaceName : Option String)
    (options : UInt32) : readArguments (params.flatMap Parameter.args) interfaceName options =
      .ok ((interfaceOf params).or interfaceName, options ||| optionsOf params) := by
  induction params generalizing interfaceName options with
  | nil => simp [readArguments, interfaceOf, optionsOf]
  | cons param params ih =>
      cases param with
      | interface name =>
          have hname : (interfaceOf (.interface name :: params)).or interfaceName =
              (interfaceOf params).or (some name) := by
            simp [interfaceOf, Parameter.name, List.getLast?_cons]
          rw [List.flatMap_cons, Parameter.args, hname]
          simpa [readArguments, optionsOf] using ih (some name) options
      | noGateway =>
          have hoptions : options ||| optionsOf (.noGateway :: params) =
              options ||| noGateway ||| optionsOf params := by
            simp [optionsOf, noGateway_or]
          rw [List.flatMap_cons, Parameter.args, hoptions, List.singleton_append,
            readArguments.eq_def]
          exact ih interfaceName (options ||| noGateway)

/-- Arguments that are read are those of a list of parameters. -/
theorem params_of_readArguments {args : List String} {interfaceName name : Option String}
    {options read : UInt32} (h : readArguments args interfaceName options = .ok (name, read)) :
    ∃ params : List Parameter, args = params.flatMap Parameter.args := by
  fun_induction readArguments args interfaceName options with
  | case1 => exact ⟨[], rfl⟩
  | case2 => exact absurd h nofun
  | case3 interfaceName options name rest ih =>
      obtain ⟨params, rfl⟩ := ih h
      exact ⟨.interface name :: params, rfl⟩
  | case4 interfaceName options rest hne ih =>
      obtain ⟨params, rfl⟩ := ih h
      exact ⟨.noGateway :: params, rfl⟩
  | case5 => exact absurd h nofun

theorem commandLine_iff {args : List String} {interfaceName : String} {options : UInt32} :
    commandLine args = .ok (interfaceName, options) ↔
      ∃ params : List Parameter, args = params.flatMap Parameter.args ∧
        interfaceOf params = some interfaceName ∧ optionsOf params = options := by
  constructor
  · intro h
    unfold commandLine at h
    split_ifs at h
    cases hread : readArguments args none 0 with
    | error refusal => simp [hread] at h
    | ok outcome =>
        obtain ⟨name, read⟩ := outcome
        obtain ⟨params, rfl⟩ := params_of_readArguments hread
        rw [readArguments_params, Option.or_none, UInt32.zero_or] at hread
        obtain ⟨rfl, rfl⟩ := Prod.mk.inj (Except.ok.inj hread)
        cases hname : interfaceOf params with
        | none => simp [readArguments_params, hname] at h
        | some name =>
            have hok : name = interfaceName ∧ optionsOf params = options := by
              simpa [readArguments_params, hname] using h
            exact ⟨params, rfl, by rw [hname, hok.1], hok.2⟩
  · rintro ⟨params, rfl, hname, rfl⟩
    have hlong : ¬ (params.flatMap Parameter.args).length + 1 < 3 := by
      obtain ⟨param, hparam, hparamName⟩ :=
        List.mem_filterMap.mp (List.mem_of_getLast? hname)
      cases param with
      | noGateway => exact absurd hparamName nofun
      | interface name =>
          obtain ⟨before, rest, rfl⟩ := List.append_of_mem hparam
          simp only [List.flatMap_append, List.flatMap_cons, Parameter.args, List.length_append,
            List.length_cons, List.length_nil]
          omega
    rw [commandLine, if_neg hlong, readArguments_params, Option.or_none, UInt32.zero_or, hname]

end Arguments

section Init

variable {host : Host} {a : InitCalls}

theorem bringUp_of_flags {calls : SystemCalls}
    (h : calls.getFlags = true ∧ (host.up = true ∨ calls.setFlags = true)) :
    host.bringUp calls = (true, { host with up := true }) := by
  rw [Host.bringUp, Host.setInterfaceUp, if_pos h.1]
  by_cases hup : host.up = true
  · rw [if_pos hup, ← hup]
  · rw [if_neg hup, if_pos (h.2.resolve_left hup)]
    rfl

theorem flags_of_bringUp {calls : SystemCalls} (h : (host.bringUp calls).1 = true) :
    calls.getFlags = true ∧ (host.up = true ∨ calls.setFlags = true) := by
  unfold Host.bringUp Host.setInterfaceUp at h
  split_ifs at h with hget hup hset
  · exact ⟨hget, Or.inl hup⟩
  · exact ⟨hget, Or.inr hset⟩

/-- An initialised interface is up and was asked for the address 0.0.0.0. -/
theorem init_of_work (h : a.Work host) :
    host.init a = (true, { host.withAddress 0 0 with up := true }) := by
  have haddress : ({ host with up := true } : Host).setAddress 0 0 a.calls =
      (true, { host.withAddress 0 0 with up := true }) := by
    rw [Host.setAddress, h.address]
    rfl
  simp [Host.init, Host.initInterface, h.sockets, h.identity, bringUp_of_flags h.up, haddress]

theorem work_of_init (h : (host.init a).1 = true) : a.Work host := by
  unfold Host.init at h
  cases hinterface : host.initInterface a with
  | mk ok host' =>
      cases ok with
      | false => simp [hinterface] at h
      | true =>
          obtain ⟨⟨hrouter, hopen⟩, hbind⟩ : (a.routerSocket = true ∧ a.openSocket = true) ∧
              a.bindSocket = true := by simpa [hinterface] using h
          unfold Host.initInterface at hinterface
          split_ifs at hinterface with hfirst
          · obtain ⟨⟨hsocket, hindex⟩, hmac⟩ : (a.interfaceSocket = true ∧ a.getIndex = true) ∧
                a.getMacAddress = true := by simpa using hfirst
            cases hup : host.bringUp a.calls with
            | mk up raised =>
                cases up with
                | false => simp [hup] at hinterface
                | true =>
                    refine ⟨⟨hsocket, hrouter, hopen, hbind⟩, ⟨hindex, hmac⟩,
                      flags_of_bringUp (congrArg Prod.fst hup), ?_⟩
                    simp only [hup, Host.setAddress] at hinterface
                    cases haddress : a.calls.newAddress with
                    | done => rfl
                    | refused => simp [haddress] at hinterface
                    | lost applied => cases applied <;> simp [haddress] at hinterface
          · simp at hinterface

end Init

section Main

variable {interfaces : String → Mac × Host} {a : InitCalls} {answers : List Answers}
  {interfaceName : String} {c : Client}

theorem params_of_main {args : List String}
    (h : main args interfaces a answers = .runs interfaceName c) :
    ∃ params : List Parameter, args = params.flatMap Parameter.args ∧
      interfaceOf params = some interfaceName ∧ a.Work (interfaces interfaceName).2 ∧
      c = Client.after (optionsOf params) (interfaces interfaceName).1
        (interfaces interfaceName).2 answers := by
  unfold main at h
  cases hline : commandLine args with
  | error refusal => simp [hline] at h
  | ok outcome =>
      obtain ⟨name, options⟩ := outcome
      obtain ⟨params, hargs, hname, rfl⟩ := commandLine_iff.mp hline
      cases hinit : (interfaces name).2.init a with
      | mk ok host =>
          cases ok with
          | false => simp [hline, hinit] at h
          | true =>
              have hwork := work_of_init (congrArg Prod.fst hinit)
              simp only [hline, init_of_work hwork] at h
              obtain ⟨rfl, rfl⟩ := Program.runs.inj h
              exact ⟨params, hargs, hname, hwork, rfl⟩

theorem main_of_params {params : List Parameter} (hname : interfaceOf params = some interfaceName)
    (hwork : a.Work (interfaces interfaceName).2) (answers : List Answers) :
    main (params.flatMap Parameter.args) interfaces a answers = .runs interfaceName
      (Client.after (optionsOf params) (interfaces interfaceName).1
        (interfaces interfaceName).2 answers) := by
  have hline := commandLine_iff.mpr ⟨params, rfl, hname, rfl⟩
  simp only [main, hline, init_of_work hwork]
  rfl

end Main

/-- The program runs a client exactly on the command lines made of parameters of which one
names an interface and where `init` succeeds; the client is that of the last such interface,
with the option exactly if a parameter asks for it. -/
theorem main_runs_iff (args : List String) (interfaces : String → Mac × Host) (a : InitCalls)
    (answers : List Answers) (interfaceName : String) (c : Client) :
    main args interfaces a answers = .runs interfaceName c ↔
      ∃ params : List Parameter, args = params.flatMap Parameter.args ∧
        interfaceOf params = some interfaceName ∧ a.Work (interfaces interfaceName).2 ∧
        c = Client.after (optionsOf params) (interfaces interfaceName).1
          (interfaces interfaceName).2 answers := by
  constructor
  · exact params_of_main
  · rintro ⟨params, rfl, hname, hwork, rfl⟩
    exact main_of_params hname hwork answers

section Routes

variable {host host' : Host} {info : DhcpInfo} {skipGateway : Bool} {calls : SystemCalls}

theorem bringUp_routes (host : Host) (calls : SystemCalls) :
    (host.bringUp calls).2.defaultRoutes = host.defaultRoutes := by
  unfold Host.bringUp Host.setInterfaceUp
  split_ifs <;> rfl

theorem bringDown_routes (host : Host) (calls : SystemCalls) :
    (host.bringDown calls).2.defaultRoutes = host.defaultRoutes ∨
      (host.bringDown calls).2.defaultRoutes = host.kernel.linkDown host.defaultRoutes := by
  unfold Host.bringDown Host.setInterfaceUp
  split_ifs
  · exact Or.inl rfl
  · exact Or.inr rfl
  · exact Or.inl rfl
  · exact Or.inl rfl

theorem setAddress_routes (host : Host) (address subnetMask : InAddr) (calls : SystemCalls) :
    (host.setAddress address subnetMask calls).2.defaultRoutes = host.defaultRoutes := by
  unfold Host.setAddress
  split <;> rfl

theorem setLink_routes (host : Host) (info : DhcpInfo) (calls : SystemCalls) :
    (host.setLink info calls).defaultRoutes = host.defaultRoutes := by
  unfold Host.setLink Host.setMtu
  split_ifs <;> rfl

/-- Ending the network leaves the routes that the kernel leaves. -/
theorem halt_routes (hkernel : host.kernel.Documented) (calls : SystemCalls) :
    (host.halt calls).defaultRoutes.Sublist host.defaultRoutes := by
  rw [Host.halt]
  rcases bringDown_routes (host.setAddress 0 0 calls).2 calls with hroutes | hroutes
  · rw [hroutes, setAddress_routes]
  · rw [hroutes, setAddress_routes, Host.setAddress_kernel]
    exact hkernel.drops host.defaultRoutes

/-- A configuration leaves the routes or adds the gateway that it read; a kernel that takes
routes has this gateway after a successful one. -/
structure RoutesChange (host host' : Host) (info : DhcpInfo) (skipGateway : Bool)
    (calls : SystemCalls) (exit : Host.Exit) : Prop where
  change : host'.defaultRoutes = host.defaultRoutes ∨
    exit = .configured ∧ skipGateway = false ∧ info.gateway ∉ host.defaultRoutes ∧
      host'.defaultRoutes = host.defaultRoutes ++ [info.gateway]
  taken : exit = .configured → skipGateway = false → calls.takeRoute = true →
    info.gateway ∈ host'.defaultRoutes

theorem route_routes (host : Host) (info : DhcpInfo) (skipGateway : Bool) (calls : SystemCalls) :
    RoutesChange host (host.route info skipGateway calls).2 info skipGateway calls
      (host.route info skipGateway calls).1 := by
  unfold Host.route Host.setDefaultGateway
  cases skipGateway with
  | true => exact ⟨Or.inl rfl, fun _ => nofun⟩
  | false =>
      cases calls.sendRoute with
      | false => exact ⟨Or.inl rfl, nofun⟩
      | true =>
          by_cases hadd : calls.takeRoute = true ∧ info.gateway ∉ host.defaultRoutes
          · simp only [if_pos hadd]
            exact ⟨Or.inr ⟨rfl, rfl, hadd.2, rfl⟩, fun _ _ _ => List.mem_append_right _ (by simp)⟩
          · simp only [if_neg hadd]
            refine ⟨Or.inl rfl, fun _ _ htake => ?_⟩
            by_contra hnew
            exact hadd ⟨htake, hnew⟩

theorem configure_routes {exit : Host.Exit}
    (h : host.configure info skipGateway calls = (exit, host')) :
    RoutesChange host host' info skipGateway calls exit := by
  unfold Host.configure at h
  have hup := bringUp_routes host calls
  cases hraised : host.bringUp calls with
  | mk up raised =>
      rw [hraised] at hup
      cases up with
      | false =>
          obtain ⟨rfl, rfl⟩ := Prod.mk.inj ((by simpa [hraised] using h) :
            (Host.Exit.notUp, raised) = (exit, host'))
          exact ⟨Or.inl hup, fun hconfigured => Host.Exit.noConfusion hconfigured⟩
      | true =>
          have haddress := setAddress_routes (raised.setLink info calls) info.offeredAddress
            info.subnetMask calls
          rw [setLink_routes, hup] at haddress
          cases haddressed : (raised.setLink info calls).setAddress info.offeredAddress
              info.subnetMask calls with
          | mk ok addressed =>
              rw [haddressed] at haddress
              cases ok with
              | false =>
                  obtain ⟨rfl, rfl⟩ := Prod.mk.inj
                    ((by simpa [hraised, haddressed] using h) :
                      (Host.Exit.noAddress, addressed) = (exit, host'))
                  exact ⟨Or.inl haddress, fun hconfigured => Host.Exit.noConfusion hconfigured⟩
              | true =>
                  have hroute : addressed.route info skipGateway calls = (exit, host') := by
                    simpa [hraised, haddressed] using h
                  have hroutes := route_routes addressed info skipGateway calls
                  rw [hroute] at hroutes
                  obtain ⟨hchange, htaken⟩ := hroutes
                  rw [haddress] at hchange
                  exact ⟨hchange, htaken⟩

/-- The leases that were configured, the latest first. -/
def leases (history : List Event) : List DhcpInfo :=
  history.filterMap fun
    | .configured _ info _ => some info
    | _ => none

/-- Those since the network was halted last. -/
def leasesSinceHalt : List Event → List DhcpInfo
  | [] => []
  | .configured _ info _ :: past => info :: leasesSinceHalt past
  | .halted :: _ => []
  | _ :: past => leasesSinceHalt past

end Routes

namespace Client

variable {c c' : Client} {a : Answers} {before : List InAddr}

/-- A step leaves the routes and the leases, ends the network, or configures one lease. -/
inductive RoutesStep (c c' : Client) (a : Answers) : Prop where
  | stays (routes : c'.host.defaultRoutes = c.host.defaultRoutes)
      (leases : leases c'.history = leases c.history)
      (current : leasesSinceHalt c'.history = leasesSinceHalt c.history)
  | halts (routes : c'.host.defaultRoutes.Sublist c.host.defaultRoutes)
      (leases : leases c'.history = leases c.history) (current : leasesSinceHalt c'.history = [])
  | configures (info : DhcpInfo) (leases : leases c'.history = info :: leases c.history)
      (current : leasesSinceHalt c'.history = info :: leasesSinceHalt c.history)
      (routes : RoutesChange c.host c'.host info (c.mOptions &&& noGateway ≠ 0) a.calls
        .configured)

theorem Moves.routes (h : Moves c a c') (hkernel : c.host.kernel.Documented) :
    RoutesStep c c' a := by
  cases h with
  | leaves => exact .stays rfl rfl rfl
  | discovers => exact .stays rfl rfl rfl
  | @requests destination =>
      rcases sendDhcpRequest_cases c destination with ⟨requestAddress, server, hsend⟩ | hnone
      · rw [hsend]
        exact .stays rfl rfl rfl
      · rw [hnone]
        exact .stays rfl rfl rfl
  | rests => exact .stays rfl rfl rfl
  | timesOut => exact .stays rfl rfl rfl
  | pollFails => exact .stays rfl rfl rfl
  | ignores => exact .stays rfl rfl rfl
  | offered => exact .stays rfl rfl rfl
  | bound _ _ _ _ _ hconfigure =>
      obtain ⟨info, host, -, -, hhost, rfl⟩ := configureDhcp_true hconfigure
      exact .configures info rfl rfl (configure_routes hhost)
  | misconfigured _ _ _ _ _ hconfigure =>
      obtain ⟨info, t1, t2, host, rfl, hhost⟩ := configureDhcp_false hconfigure
      refine .stays ?_ rfl rfl
      rcases hhost with rfl | ⟨info', exit, hhost, hexit, -⟩
      · rfl
      · exact (configure_routes hhost).change.resolve_right fun hadd => hexit hadd.1
  | denied => exact .halts (halt_routes hkernel _) rfl rfl

/-- What is left of the routes from before, and behind them gateways of leases, each once. -/
structure RoutesOf (before : List InAddr) (c : Client) : Prop where
  added : ∃ kept added, c.host.defaultRoutes = kept ++ added ∧ kept.Sublist before ∧
    added.Nodup ∧ ∀ gateway ∈ added, gateway ∉ kept ∧ c.mOptions &&& noGateway = 0 ∧
      ∃ info ∈ leases c.history, info.gateway = gateway

theorem RoutesOf.move (h : RoutesOf before c) (hkernel : c.host.kernel.Documented)
    (hmove : Moves c a c') : RoutesOf before c' := by
  obtain ⟨kept, added, hroutes, hkept, hnodup, hadded⟩ := h
  have hoptions := hmove.mOptions
  rw [← hoptions] at hadded
  cases hmove.routes hkernel with
  | stays hsame hleases =>
      refine ⟨kept, added, hsame.trans hroutes, hkept, hnodup, ?_⟩
      rwa [hleases]
  | halts hless hleases =>
      rw [hroutes] at hless
      obtain ⟨kept', added', hroutes', hkept', hadded'⟩ := List.sublist_append_iff.mp hless
      refine ⟨kept', added', hroutes', hkept'.trans hkept, hnodup.sublist hadded', ?_⟩
      intro gateway hmem
      obtain ⟨hnew, hrest⟩ := hadded gateway (hadded'.subset hmem)
      rw [hleases]
      exact ⟨fun hold => hnew (hkept'.subset hold), hrest⟩
  | configures info hleases _ hchange =>
      have hstill : ∀ gateway ∈ added, gateway ∉ kept ∧ c'.mOptions &&& noGateway = 0 ∧
          ∃ info ∈ leases c'.history, info.gateway = gateway := by
        intro gateway hmem
        obtain ⟨hnew, hflag, old, hold, rfl⟩ := hadded gateway hmem
        exact ⟨hnew, hflag, old, hleases ▸ List.mem_cons_of_mem _ hold, rfl⟩
      rcases hchange.change with hsame | ⟨-, hflag, hfresh, hadd⟩
      · exact ⟨kept, added, hsame.trans hroutes, hkept, hnodup, hstill⟩
      · rw [hroutes, List.mem_append, not_or] at hfresh
        rw [hroutes, List.append_assoc] at hadd
        refine ⟨kept, added ++ [info.gateway], hadd, hkept, ?_, ?_⟩
        · exact List.nodup_append_comm.mp (List.nodup_cons.mpr ⟨hfresh.2, hnodup⟩)
        · intro gateway hmem
          rcases List.mem_append.mp hmem with hmem | hmem
          · exact hstill gateway hmem
          · obtain rfl := List.mem_singleton.mp hmem
            refine ⟨hfresh.1, ?_, info, hleases ▸ List.mem_cons_self, rfl⟩
            rw [hoptions]
            simpa using hflag

/-- The gateways of the leases since the last halt are among the routes. -/
def RoutesTaken (c : Client) : Prop :=
  c.mOptions &&& noGateway = 0 →
    ∀ info ∈ leasesSinceHalt c.history, info.gateway ∈ c.host.defaultRoutes

theorem RoutesTaken.move (h : RoutesTaken c) (hkernel : c.host.kernel.Documented)
    (htake : a.calls.takeRoute = true) (hmove : Moves c a c') : RoutesTaken c' := by
  have hoptions := hmove.mOptions
  cases hmove.routes hkernel with
  | stays hsame _ hcurrent =>
      unfold RoutesTaken
      rwa [hoptions, hcurrent, hsame]
  | halts _ _ hcurrent =>
      intro _ old hold
      rw [hcurrent] at hold
      exact absurd hold List.not_mem_nil
  | configures info _ hcurrent hchange =>
      intro hflag old hold
      rw [hoptions] at hflag
      rw [hcurrent] at hold
      rcases List.mem_cons.mp hold with rfl | hold
      · exact hchange.taken rfl (by simpa using hflag) htake
      · rcases hchange.change with hsame | ⟨-, -, -, hadd⟩
        · exact hsame ▸ h hflag old hold
        · exact hadd ▸ List.mem_append_left _ (h hflag old hold)

/-- The kernel stays what it was at the start. -/
theorem step_documented (c : Client) (a : Answers) (h : c.host.kernel.Documented) :
    (c.step a).host.kernel.Documented := by
  rw [(step_moves c a).kernel]
  exact h

theorem after_routesOf (options : UInt32) (macAddress : Mac) {host : Host}
    (hkernel : host.kernel.Documented) (answers : List Answers) :
    RoutesOf host.defaultRoutes (after options macAddress host answers) := by
  have hstart : RoutesOf host.defaultRoutes (fresh options macAddress host) :=
    ⟨host.defaultRoutes, [], (List.append_nil _).symm, List.Sublist.refl _, List.nodup_nil,
      List.forall_mem_nil _⟩
  have hstep : ∀ (c : Client) a, c.host.kernel.Documented ∧ RoutesOf host.defaultRoutes c →
      (c.step a).host.kernel.Documented ∧ RoutesOf host.defaultRoutes (c.step a) :=
    fun c a hc => ⟨step_documented c a hc.1, hc.2.move hc.1 (step_moves c a)⟩
  exact (run_invariant hstep ⟨hkernel, hstart⟩ answers).2

theorem after_routesTaken (options : UInt32) (macAddress : Mac) {host : Host}
    (hkernel : host.kernel.Documented) {answers : List Answers}
    (htake : ∀ a ∈ answers, a.calls.takeRoute = true) :
    RoutesTaken (after options macAddress host answers) := by
  have hsteps : AllSteps step (fun _ a => a.calls.takeRoute = true)
      (fresh options macAddress host) answers := (allSteps_forall step _ answers).mpr htake
  have hstep : ∀ (c : Client) (a : Answers), c.host.kernel.Documented ∧ RoutesTaken c →
      a.calls.takeRoute = true → (c.step a).host.kernel.Documented ∧ RoutesTaken (c.step a) :=
    fun c a hc ha => ⟨step_documented c a hc.1, hc.2.move hc.1 ha (step_moves c a)⟩
  exact (hsteps.invariant hstep ⟨hkernel, fun _ => List.forall_mem_nil _⟩).2

end Client

theorem optionsOf_iff (params : List Parameter) :
    optionsOf params &&& noGateway = 0 ↔ .noGateway ∉ params := by
  unfold optionsOf
  split_ifs with h
  · exact iff_of_false (by decide) (not_not_intro h)
  · exact iff_of_true (by decide) h

/-- A command line is read in one way. -/
theorem optionsOf_unique {params params' : List Parameter}
    (h : params.flatMap Parameter.args = params'.flatMap Parameter.args) :
    optionsOf params = optionsOf params' := by
  have hread := (readArguments_params params none 0).symm.trans
    ((congrArg (readArguments · none 0) h).trans (readArguments_params params' none 0))
  simpa using (Prod.mk.inj (Except.ok.inj hread)).2

/-- At any time of a run the default routes are those that are left of the ones from before
and, each once, gateways of leases; none of these under `--no-gateway`, and otherwise, if the
kernel takes every route, the gateways of all leases since the network was last halted. -/
theorem main_routes (params : List Parameter) (interfaces : String → Mac × Host) (a : InitCalls)
    (answers : List Answers) (interfaceName : String) (c : Client)
    (hkernel : (interfaces interfaceName).2.kernel.Documented)
    (h : main (params.flatMap Parameter.args) interfaces a answers = .runs interfaceName c) :
    ∃ kept added, c.host.defaultRoutes = kept ++ added ∧
      kept.Sublist (interfaces interfaceName).2.defaultRoutes ∧ added.Nodup ∧
      (∀ gateway ∈ added, gateway ∉ kept ∧ ∃ info ∈ leases c.history, info.gateway = gateway) ∧
      (.noGateway ∈ params → added = []) ∧
      (.noGateway ∉ params → (∀ a ∈ answers, a.calls.takeRoute = true) →
        ∀ info ∈ leasesSinceHalt c.history, info.gateway ∈ c.host.defaultRoutes) := by
  obtain ⟨params', hargs, -, -, rfl⟩ := params_of_main h
  rw [← optionsOf_unique hargs]
  have hoptions : (Client.after (optionsOf params) (interfaces interfaceName).1
      (interfaces interfaceName).2 answers).mOptions = optionsOf params :=
    run_invariant (fun c a hc => (Client.step_moves c a).mOptions.trans hc) rfl answers
  have hroutes := Client.after_routesOf (optionsOf params) (interfaces interfaceName).1 hkernel
    answers
  obtain ⟨kept, added, hgrown, hkept, hnodup, hadded⟩ := hroutes
  rw [hoptions, optionsOf_iff] at hadded
  refine ⟨kept, added, hgrown, hkept, hnodup, fun gateway hmem => ?_, fun hflag => ?_,
    fun hflag htake => ?_⟩
  · obtain ⟨hnew, -, hlease⟩ := hadded gateway hmem
    exact ⟨hnew, hlease⟩
  · refine List.eq_nil_iff_forall_not_mem.mpr fun gateway hmem => ?_
    exact (hadded gateway hmem).2.1 hflag
  · rw [← optionsOf_iff, ← hoptions] at hflag
    exact Client.after_routesTaken (optionsOf params) _ hkernel htake hflag

/-- A machine with the interface of the emulated device, by any name. -/
def oneInterface : String → Mac × Host := fun _ => (deviceMac, bareHost)

def allInitCallsWork : InitCalls := ⟨true, true, true, allCallsWork, true, true, true⟩

/-- The device is offered and granted a lease. -/
def grantedRun : List Answers :=
  [Answers.quiet 0, Answers.quiet 0, Client.offeringRouter, Answers.quiet 1000,
    Client.acknowledgingRouter]

theorem main_routes_eth0 :
    (Client.after 0 deviceMac bareHost grantedRun).host.defaultRoutes = [routerAddress] ∧
      ∃ info ∈ leases (Client.after 0 deviceMac bareHost grantedRun).history,
        info.gateway = routerAddress := by
  have hroutes : (Client.after 0 deviceMac bareHost grantedRun).host.defaultRoutes =
      [routerAddress] := by
    decide +kernel
  have hmain : main ([.interface "eth0"].flatMap Parameter.args) oneInterface allInitCallsWork
      grantedRun = .runs "eth0" (Client.after 0 deviceMac bareHost grantedRun) :=
    main_of_params rfl ⟨⟨rfl, rfl, rfl, rfl⟩, ⟨rfl, rfl⟩, ⟨rfl, Or.inr rfl⟩, rfl⟩ grantedRun
  obtain ⟨kept, added, hgrown, hkept, -, hadded, -, -⟩ := main_routes [.interface "eth0"]
    oneInterface allInitCallsWork grantedRun "eth0"
    (Client.after 0 deviceMac bareHost grantedRun) linuxKernel_documented hmain
  have hnone : kept = [] := List.sublist_nil.mp hkept
  have heq : added = [routerAddress] := by
    rw [hnone] at hgrown
    exact hgrown.symm.trans hroutes
  rw [heq] at hadded
  exact ⟨hroutes, (hadded routerAddress List.mem_cons_self).2⟩

end AndroidX86Tv.Dhcp
