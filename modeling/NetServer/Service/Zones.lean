import NetServer.Service.Manager

/-!
# One client for each zone

A zone is meant to have one client, which its manager owns, and to get a new one when it has none.
Three things stand against that. A client that is dropped as offline leaves the map without being
deleted, `insert` keeps the entry that is there already while `Get…Client` returns the client it
made itself, and a failed attempt of `Get…Client` leaves a null pointer in the map, which no later
call and no pass replaces.
-/

namespace NetServer

open Lib

namespace ServiceMgr

variable {κ ω ι : Type} (service : Service κ ω ι) (configer : Configer) (mgr : ServiceMgr κ)

/-! ## Conditions on a step -/

/-- The attempt to connect that is part of an event, with its zone and outcome. -/
def attempt : MgrEvent ω ι → Option (Int × ι)
  | .init outcome => mgr.starting.head?.map fun entry => (entry.1, outcome)
  | .lookup _ _ => none
  | .connect thread outcome => (mgr.calls[thread]?).map fun call => (call.1, outcome)
  | .testOnLine _ => none

/-- An attempt that succeeds is for a zone without an entry. -/
def FirstForZone (event : MgrEvent ω ι) : Prop :=
  ∀ zone outcome, mgr.attempt event = some (zone, outcome) → service.connects outcome = true →
    mgr.clientMap[zone]? = none

/-- A pass finds the client of a zone offline. -/
def Evicts (event : MgrEvent ω ι) (zone : Int) : Prop :=
  ∃ outcomes pClient client tested, event = .testOnLine outcomes ∧ mgr.holds zone = some pClient ∧
    mgr.clients.get? pClient = some client ∧ service.test client (outcomes zone) = .ok tested ∧
    tested.returns = false

/-- An attempt of `Get…Client` that fails is for a zone that has an entry by then. -/
def NotFirstFailure (event : MgrEvent ω ι) : Prop :=
  ∀ (thread : Nat) (outcome : ι) (zone : Int) (info : ConfigInfo), event = .connect thread outcome →
    mgr.calls[thread]? = some (zone, info) →
    service.connects outcome = false → mgr.clientMap[zone]? ≠ none

/-- A step that leaves the result of the calls for a zone as it is: it makes no client for the zone
when that has an entry, no attempt of `Get…Client` fails for it while it holds a client, no call for
it returns at once without an entry while `OnInit` has still to try the zone, and no pass finds its
client offline. -/
structure KeepsResult (event : MgrEvent ω ι) (zone : Int) : Prop where
  made : ∀ outcome, mgr.attempt event = some (zone, outcome) →
    service.connects outcome = true → mgr.clientMap[zone]? = none
  failed : ∀ thread outcome info, event = .connect thread outcome →
    mgr.calls[thread]? = some (zone, info) → service.connects outcome = false →
    mgr.holds zone = none
  early : ∀ thread, event = .lookup thread zone → mgr.clientMap[zone]? = none →
    ¬ConnectsTo (lazyInfo configer zone) → ∀ info, (zone, info) ∉ mgr.starting
  online : ¬mgr.Evicts service event zone

/-- The map owns the live clients: each of them belongs to one zone. -/
def Owned : Prop := Exclusive mgr.holds mgr.Live

/-- No zone is mapped to a null pointer. -/
def NoNull : Prop := ∀ zone : Int, mgr.clientMap[zone]? ≠ some none

variable {service configer mgr} {next : ServiceMgr κ} {event : MgrEvent ω ι}
  {answer : Option (Int × Option Nat)} {outcomes : Int → ω} {zone : Int} {pClient : Nat}

/-- A client is made exactly when the attempt succeeds. -/
theorem connects_of_make {info : ConfigInfo} {outcome : ι} {client : κ}
    (make : service.make info outcome = some client) : service.connects outcome = true := by
  rw [← service.make_isSome info, make]
  rfl

@[inherit_doc connects_of_make]
theorem not_connects_of_make {info : ConfigInfo} {outcome : ι}
    (make : service.make info outcome = none) : service.connects outcome = false := by
  rw [← service.make_isSome info, make]
  rfl

/-! ## Passes -/

namespace Passed

/-- A zone that a pass does not find offline keeps its entry. -/
theorem entry_kept (passed : Passed service outcomes mgr.clientMap.toList mgr next)
    (kept : ¬mgr.Evicts service (.testOnLine outcomes) zone) :
    next.clientMap[zone]? = mgr.clientMap[zone]? := by
  by_cases listed : ∃ pClient, (zone, some pClient) ∈ mgr.clientMap.toList
  · obtain ⟨pClient, inMap⟩ := listed
    obtain ⟨client, tested, alive, test, -, entry⟩ := passed.tested inMap
    have held : mgr.holds zone = some pClient :=
      holds_eq_some.mpr (Std.ExtTreeMap.mem_toList_iff_getElem?_eq_some.mp inMap)
    have online : tested.returns = true := by
      by_contra offline
      exact kept ⟨outcomes, pClient, client, tested, rfl, held, alive, test, by simpa using offline⟩
    rw [entry, if_pos online]
  · exact passed.otherZones fun pClient inMap => listed ⟨pClient, inMap⟩

/-- A zone whose client is offline holds nothing behind a pass. -/
theorem holds_evicted (passed : Passed service outcomes mgr.clientMap.toList mgr next)
    (evicted : mgr.Evicts service (.testOnLine outcomes) zone) : next.holds zone = none := by
  obtain ⟨outcomes', pClient, client, tested, same, held, alive, test, offline⟩ := evicted
  cases same
  obtain ⟨client', tested', alive', test', -, entry⟩ :=
    passed.tested (Std.ExtTreeMap.mem_toList_iff_getElem?_eq_some.mpr (holds_eq_some.mp held))
  rw [alive] at alive'
  cases alive'
  rw [test] at test'
  cases test'
  rw [ServiceMgr.holds, entry, offline]
  rfl

/-- A pass neither makes nor replaces a null pointer. -/
theorem null_iff (passed : Passed service outcomes mgr.clientMap.toList mgr next) :
    next.clientMap[zone]? = some none ↔ mgr.clientMap[zone]? = some none := by
  by_cases listed : ∃ pClient, (zone, some pClient) ∈ mgr.clientMap.toList
  · obtain ⟨pClient, inMap⟩ := listed
    obtain ⟨client, tested, -, -, -, entry⟩ := passed.tested inMap
    rw [entry, Std.ExtTreeMap.mem_toList_iff_getElem?_eq_some.mp inMap]
    split <;> simp
  · rw [passed.otherZones fun pClient inMap => listed ⟨pClient, inMap⟩]

end Passed

/-! ## Ownership -/

/-- In a sound map, ownership means that every live client has a zone. -/
theorem Sound.owned_iff (sound : mgr.Sound) :
    mgr.Owned ↔ ∀ pClient, mgr.Live pClient → ∃ zone, mgr.holds zone = some pClient := by
  constructor
  · intro owned pClient alive
    exact (owned.covered pClient).mp alive
  · intro covered
    refine ⟨sound.unique, fun pClient => ⟨covered pClient, ?_⟩⟩
    rintro ⟨zone, held⟩
    exact sound.live held

/-- A new client is owned when its zone had no entry, and never otherwise. -/
theorem Sound.owned_made (sound : mgr.Sound) (zone : Int) (client : κ) :
    (mgr.made zone client).Owned ↔ mgr.Owned ∧ mgr.clientMap[zone]? = none := by
  cases entry : mgr.clientMap[zone]? with
  | some pOld =>
    constructor
    · intro owned
      obtain ⟨zone', held⟩ := (owned.covered mgr.clients.next).mp (live_made.mpr (.inl rfl))
      rw [holds_made_present client entry] at held
      exact absurd held sound.not_holds_next
    · rintro ⟨-, absent⟩
      cases absent
  | none =>
    have vacant : mgr.holds zone = none := by rw [holds, entry]; rfl
    have dead : ¬mgr.Live mgr.clients.next := by simp [Live]
    rw [and_iff_left rfl]
    constructor
    · intro owned
      rw [sound.owned_iff]
      intro pClient alive
      obtain ⟨zone', held⟩ := (owned.covered pClient).mp (live_made.mpr (.inr alive))
      rw [holds_made_absent client entry] at held
      have other : zone' ≠ zone := by
        rintro rfl
        rw [Function.update_self] at held
        cases held
        exact dead alive
      rw [Function.update_of_ne other] at held
      exact ⟨zone', held⟩
    · intro owned
      rw [Owned, holds_made_absent client entry]
      exact (owned.fresh vacant dead).congr fun _ => live_made

/-- A null pointer owns nothing. -/
theorem owned_refused : (mgr.refused zone).Owned ↔ mgr.Owned := by
  rw [Owned, holds_refused]
  rfl

/-- A pass leaves every client owned when it finds none offline, and never otherwise. -/
theorem Sound.owned_passed (sound : mgr.Sound)
    (passed : Passed service outcomes mgr.clientMap.toList mgr next) :
    next.Owned ↔ mgr.Owned ∧ ∀ zone, ¬mgr.Evicts service (.testOnLine outcomes) zone := by
  constructor
  · intro owned
    refine ⟨sound.owned_iff.mpr fun pClient alive => ?_, fun zone evicted => ?_⟩
    · obtain ⟨zone, held⟩ := (owned.covered pClient).mp (passed.live.mpr alive)
      exact ⟨zone, passed.holds held⟩
    · have gone := passed.holds_evicted evicted
      obtain ⟨-, pClient, -, -, -, held, -⟩ := evicted
      -- the client is still alive, but its zone was the only one that held it
      obtain ⟨zone', held'⟩ := (owned.covered pClient).mp (passed.live.mpr (sound.live held))
      have same : zone' = zone := sound.unique (passed.holds held') held
      rw [same, gone] at held'
      cases held'
  · rintro ⟨owned, kept⟩
    have same : next.holds = mgr.holds := by
      funext zone
      rw [ServiceMgr.holds, ServiceMgr.holds, passed.entry_kept (kept zone)]
    rw [Owned, same]
    exact owned.congr fun _ => passed.live

/-- A step keeps ownership exactly when it makes no second client for a zone and drops none. -/
theorem Sound.owned_step (sound : mgr.Sound)
    (steps : (serviceMachine service configer).Steps mgr event answer next) :
    next.Owned ↔ mgr.Owned ∧ mgr.FirstForZone service event ∧ ∀ zone,
      ¬mgr.Evicts service event zone := by
  have noPass : (∀ outcomes, event ≠ .testOnLine outcomes) →
      ∀ zone, ¬mgr.Evicts service event zone := by
    rintro other zone ⟨outcomes, -, -, -, same, -⟩
    exact other outcomes same
  cases effect_of_steps steps with
  | @initMade outcome zone info starting client first make =>
    have firstForZone : mgr.FirstForZone service (.init outcome) ↔ mgr.clientMap[zone]? = none := by
      simp [FirstForZone, attempt, first, connects_of_make make]
    rw [and_iff_left (noPass (by simp)), firstForZone]
    exact sound.owned_made zone client
  | @connected thread outcome zone info client call make =>
    have firstForZone : mgr.FirstForZone service (.connect thread outcome) ↔
        mgr.clientMap[zone]? = none := by
      simp [FirstForZone, attempt, call, connects_of_make make]
    rw [and_iff_left (noPass (by simp)), firstForZone]
    exact sound.owned_made zone client
  | initFailed first make =>
    refine (and_iff_left ⟨?_, noPass (by simp)⟩).symm
    simp [FirstForZone, attempt, first, not_connects_of_make make]
  | @refused thread outcome zone info call make =>
    have firstForZone : mgr.FirstForZone service (.connect thread outcome) := by
      simp [FirstForZone, attempt, call, not_connects_of_make make]
    rw [and_iff_left ⟨firstForZone, noPass (by simp)⟩]
    exact owned_refused
  | found entry => exact (and_iff_left ⟨by simp [FirstForZone, attempt], noPass (by simp)⟩).symm
  | unconfigured absent nowhere =>
    exact (and_iff_left ⟨by simp [FirstForZone, attempt], noPass (by simp)⟩).symm
  | pending absent somewhere =>
    exact (and_iff_left ⟨by simp [FirstForZone, attempt], noPass (by simp)⟩).symm
  | @tested outcomes next ran =>
    have firstForZone : mgr.FirstForZone service (.testOnLine outcomes : MgrEvent ω ι) := by
      simp [FirstForZone, attempt]
    rw [and_iff_right firstForZone]
    exact sound.owned_passed (sound.passed ran)

/-! ## The result of the calls for a zone -/

/-- `insert` makes an entry for a zone that has none. -/
theorem insertIfNew_entry (map : Std.ExtTreeMap Int (Option Nat)) (made zone : Int)
    (pClient : Option Nat) : (map.insertIfNew made pClient)[zone]? =
      if made = zone ∧ map[made]? = none then some pClient else map[zone]? := by
  simp only [Std.ExtTreeMap.getElem?_insertIfNew, Std.compare_eq_iff_eq,
    Std.ExtTreeMap.mem_iff_isSome_getElem?, Option.not_isSome_iff_eq_none]

/-- The calls in progress are for zones that `Get…Client` can connect to. -/
def Connecting (configer : Configer) (mgr : ServiceMgr κ) : Prop :=
  ∀ (thread : Nat) (zone : Int) (info : ConfigInfo), mgr.calls[thread]? = some (zone, info) →
    ConnectsTo (lazyInfo configer zone)

/-- A call goes on only for such a zone. -/
theorem Sound.connecting_step (sound : mgr.Sound)
    (steps : (serviceMachine service configer).Steps mgr event answer next)
    (connecting : mgr.Connecting configer) : next.Connecting configer := by
  have erased : ∀ thread (thread' : Nat) (zone : Int) (info : ConfigInfo),
      (mgr.calls.erase thread)[thread']? = some (zone, info) →
        ConnectsTo (lazyInfo configer zone) := by
    intro thread thread' zone info call
    rw [Std.ExtTreeMap.getElem?_erase] at call
    split at call
    · cases call
    · exact connecting _ _ _ call
  cases effect_of_steps steps with
  | initMade first make => exact connecting
  | initFailed first make => exact connecting
  | found entry => exact connecting
  | unconfigured absent nowhere => exact connecting
  | @pending thread zone absent somewhere =>
    intro thread' zone' info call
    simp only [Std.ExtTreeMap.getElem?_insert] at call
    split at call
    · cases call
      exact somewhere
    · exact connecting _ _ _ call
  | @connected thread outcome zone info client call make => exact erased thread
  | @refused thread outcome zone info call make => exact erased thread
  | tested ran =>
    intro thread zone info call
    rw [(sound.passed ran).calls] at call
    exact connecting _ _ _ call

/-- What all calls for a zone return from now on: its entry, or a null pointer when it has none and
none can be made for it. -/
def Settled (configer : Configer) (mgr : ServiceMgr κ) (zone : Int) (result : Option Nat) : Prop :=
  mgr.clientMap[zone]? = some result ∨
    result = none ∧ mgr.clientMap[zone]? = none ∧ ¬ConnectsTo (lazyInfo configer zone) ∧
      ∀ info, (zone, info) ∉ mgr.starting

variable {result : Option Nat}

/-- No client is made for a zone whose result is settled. -/
theorem Settled.not_made (settled : mgr.Settled configer zone result)
    (connecting : mgr.Connecting configer) (keeps : mgr.KeepsResult service configer event zone)
    {outcome : ι} (attempts : mgr.attempt event = some (zone, outcome))
    (succeeds : service.connects outcome = true) : False := by
  have absent := keeps.made outcome attempts succeeds
  rcases settled with present | ⟨-, -, nowhere, tried⟩
  · rw [absent] at present
    cases present
  · cases event with
    | init outcome' =>
      obtain ⟨⟨zone', info⟩, first, same⟩ := Option.map_eq_some_iff.mp attempts
      cases same
      exact tried info (List.mem_of_head? first)
    | lookup thread zone' => cases attempts
    | connect thread outcome' =>
      obtain ⟨⟨zone', info⟩, call, same⟩ := Option.map_eq_some_iff.mp attempts
      cases same
      exact nowhere (connecting _ _ _ call)
    | testOnLine outcomes => cases attempts

/-- A settled result depends on the entry of the zone and on what `OnInit` has still to try. -/
theorem Settled.congr (settled : mgr.Settled configer zone result)
    (entry : next.clientMap[zone]? = mgr.clientMap[zone]?) (fewer : next.starting ⊆ mgr.starting) :
    next.Settled configer zone result := by
  rw [Settled, entry]
  refine settled.imp_right fun none => ?_
  exact ⟨none.1, none.2.1, none.2.2.1, fun info listed => none.2.2.2 info (fewer listed)⟩

/-- A step that keeps the result of a zone keeps it settled. -/
theorem Settled.step (settled : mgr.Settled configer zone result) (sound : mgr.Sound)
    (connecting : mgr.Connecting configer) (keeps : mgr.KeepsResult service configer event zone)
    (steps : (serviceMachine service configer).Steps mgr event answer next) :
    next.Settled configer zone result := by
  cases effect_of_steps steps with
  | @initMade outcome made info starting client first make =>
    have other : made ≠ zone := by
      rintro rfl
      refine settled.not_made connecting keeps ?_ (connects_of_make make)
      rw [attempt, first]
      rfl
    apply settled.congr
    · exact (insertIfNew_entry _ _ _ _).trans (if_neg fun same => other same.1)
    · rw [first]
      exact List.subset_cons_self _ _
  | initFailed first make =>
    refine settled.congr rfl ?_
    rw [first]
    exact List.subset_cons_self _ _
  | found entry => exact settled
  | unconfigured absent nowhere => exact settled
  | pending absent somewhere => exact settled.congr rfl (List.Subset.refl _)
  | @connected thread outcome made info client call make =>
    have other : made ≠ zone := by
      rintro rfl
      refine settled.not_made connecting keeps ?_ (connects_of_make make)
      rw [attempt, call]
      rfl
    apply settled.congr
    · exact (insertIfNew_entry _ _ _ _).trans (if_neg fun same => other same.1)
    · exact List.Subset.refl _
  | @refused thread outcome made info call make =>
    apply settled.congr
    · refine (insertIfNew_entry _ _ _ _).trans (if_neg ?_)
      rintro ⟨rfl, absent⟩
      rcases settled with present | ⟨-, -, nowhere, -⟩
      · rw [absent] at present
        cases present
      · exact nowhere (connecting _ _ _ call)
    · exact List.Subset.refl _
  | tested ran =>
    have passed := sound.passed ran
    apply settled.congr
    · exact passed.entry_kept keeps.online
    · rw [passed.starting]
      exact List.Subset.refl _

/-- A call returns the settled result of its zone. -/
theorem Settled.answer_eq (settled : mgr.Settled configer zone result)
    (connecting : mgr.Connecting configer) (keeps : mgr.KeepsResult service configer event zone)
    {other : Option Nat}
    (steps : (serviceMachine service configer).Steps mgr event (some (zone, other)) next) :
    other = result := by
  cases effect_of_steps steps with
  | found entry =>
    rcases settled with present | ⟨-, absent, -⟩
    · rw [entry] at present
      exact Option.some.inj present
    · rw [entry] at absent
      cases absent
  | unconfigured absent nowhere =>
    rcases settled with present | ⟨null, -⟩
    · rw [absent] at present
      cases present
    · exact null.symm
  | connected call make =>
    refine (settled.not_made connecting keeps ?_ (connects_of_make make)).elim
    rw [attempt, call]
    rfl
  | @refused thread outcome _ info call make =>
    have vacant := keeps.failed thread outcome info rfl call (not_connects_of_make make)
    rcases settled with present | ⟨null, -⟩
    · rw [holds, present] at vacant
      exact vacant.symm
    · exact null.symm

/-- What a call returns is the settled result of its zone from then on. -/
theorem settled_of_answer (keeps : mgr.KeepsResult service configer event zone)
    (steps : (serviceMachine service configer).Steps mgr event (some (zone, result)) next) :
    next.Settled configer zone result := by
  cases effect_of_steps steps with
  | found entry => exact .inl entry
  | @unconfigured thread _ absent nowhere =>
    exact .inr ⟨rfl, absent, nowhere, keeps.early thread rfl absent nowhere⟩
  | @connected thread outcome _ info client call make =>
    have absent : mgr.clientMap[zone]? = none := by
      refine keeps.made outcome ?_ (connects_of_make make)
      rw [attempt, call]
      rfl
    exact .inl ((insertIfNew_entry _ _ _ _).trans (if_pos ⟨rfl, absent⟩))
  | @refused thread outcome _ info call make =>
    have vacant := keeps.failed thread outcome info rfl call (not_connects_of_make make)
    refine .inl ((insertIfNew_entry _ _ _ _).trans ?_)
    split_ifs with absent
    · rfl
    · -- An entry that holds nothing is a null pointer.
      cases entry : mgr.clientMap[zone]? with
      | none => exact absurd ⟨rfl, entry⟩ absent
      | some pClient =>
        rw [holds, entry] at vacant
        exact congrArg some vacant

variable {trace : List (MgrEvent ω ι × Option (Int × Option Nat))}

/-- Along a run that keeps the result of a zone all calls return the settled one. The induction is
on the run. -/
theorem Settled.answers_eq (settled : mgr.Settled configer zone result) (sound : mgr.Sound)
    (connecting : mgr.Connecting configer)
    (ran : (serviceMachine service configer).Run mgr trace next)
    (keeps : (serviceMachine service configer).Throughout
      (fun mgr event => mgr.KeepsResult service configer event zone) mgr trace)
    {other : Option Nat} (returned : (event, some (zone, other)) ∈ trace) : other = result := by
  induction ran with
  | nil => cases returned
  | cons first rest ih =>
    rw [Machine.throughout_cons first] at keeps
    rcases List.mem_cons.mp returned with same | later
    · cases same
      exact settled.answer_eq connecting keeps.1 first
    · exact ih (settled.step sound connecting keeps.1 first) (sound.step first)
        (sound.connecting_step first connecting) keeps.2 later

/-- Along such a run all calls for the zone return one result: the first of them settles it. -/
theorem Sound.answers_same (sound : mgr.Sound) (connecting : mgr.Connecting configer)
    (ran : (serviceMachine service configer).Run mgr trace next)
    (keeps : (serviceMachine service configer).Throughout
      (fun mgr event => mgr.KeepsResult service configer event zone) mgr trace) :
    ∃ result, ∀ event other, (event, some (zone, other)) ∈ trace → other = result := by
  induction ran with
  | nil => exact ⟨none, fun event other returned => absurd returned List.not_mem_nil⟩
  | @cons mgr middle last event answer trace first rest ih =>
    rw [Machine.throughout_cons first] at keeps
    have sound' := sound.step first
    have connecting' := sound.connecting_step first connecting
    by_cases isFirst : ∃ result, answer = some (zone, result)
    · obtain ⟨result, rfl⟩ := isFirst
      refine ⟨result, fun event' other returned => ?_⟩
      rcases List.mem_cons.mp returned with same | later
      · cases same
        rfl
      · exact (settled_of_answer keeps.1 first).answers_eq sound' connecting' rest keeps.2 later
    · obtain ⟨result, same⟩ := ih sound' connecting' keeps.2
      refine ⟨result, fun event' other returned => ?_⟩
      rcases List.mem_cons.mp returned with same' | later
      · cases same'
        exact absurd ⟨other, rfl⟩ isFirst
      · exact same event' other later

/-! ## Null pointers -/

/-- A new client is no null pointer. -/
theorem noNull_made (zone : Int) (client : κ) : (mgr.made zone client).NoNull ↔ mgr.NoNull := by
  have same : ∀ zone' : Int, (mgr.made zone client).clientMap[zone']? = some none ↔
      mgr.clientMap[zone']? = some none := by
    intro zone'
    simp only [made, Std.ExtTreeMap.getElem?_insertIfNew, Std.compare_eq_iff_eq]
    split
    · rename_i absent
      obtain ⟨rfl, missing⟩ := absent
      simp [Std.ExtTreeMap.getElem?_eq_none missing]
    · rfl
  exact forall_congr' fun zone' => not_congr (same zone')

/-- A null pointer goes into the map when its zone has no entry. -/
theorem noNull_refused (zone : Int) :
    (mgr.refused zone).NoNull ↔ mgr.NoNull ∧ mgr.clientMap[zone]? ≠ none := by
  have inserted : ∀ zone' : Int, (mgr.refused zone).clientMap[zone']? =
      if zone = zone' ∧ mgr.clientMap[zone]? = none then some none else mgr.clientMap[zone']? := by
    intro zone'
    exact insertIfNew_entry _ _ _ _
  constructor
  · intro noNull
    have present : mgr.clientMap[zone]? ≠ none := by
      intro absent
      exact noNull zone (by rw [inserted, if_pos ⟨rfl, absent⟩])
    refine ⟨fun zone' null => noNull zone' ?_, present⟩
    rw [inserted, if_neg fun both => present both.2, null]
  · rintro ⟨noNull, present⟩ zone' null
    rw [inserted, if_neg fun both => present both.2] at null
    exact noNull zone' null

/-- A step keeps null pointers out of the map exactly when it is no first failure. -/
theorem Sound.noNull_step (sound : mgr.Sound)
    (steps : (serviceMachine service configer).Steps mgr event answer next) :
    next.NoNull ↔ mgr.NoNull ∧ mgr.NotFirstFailure service event := by
  have noFailure : (∀ thread outcome, event ≠ .connect thread outcome) →
      mgr.NotFirstFailure service event :=
    fun other thread outcome _ _ same => absurd same (other thread outcome)
  cases effect_of_steps steps with
  | @initMade _ zone _ _ client first make =>
    rw [and_iff_left (noFailure (by simp))]
    exact noNull_made zone client
  | @connected thread outcome zone info client call make =>
    have succeeds : mgr.NotFirstFailure service (.connect thread outcome) := by
      intro thread' outcome' _ _ same _ fails
      cases same
      rw [connects_of_make make] at fails
      cases fails
    rw [and_iff_left succeeds]
    exact noNull_made zone client
  | @refused thread outcome zone info call make =>
    have condition : mgr.NotFirstFailure service (.connect thread outcome) ↔
        mgr.clientMap[zone]? ≠ none := by
      constructor
      · intro present
        exact present thread outcome zone info rfl call (not_connects_of_make make)
      · intro present thread' outcome' zone' info' same call' _
        cases same
        rw [call] at call'
        cases call'
        exact present
    rw [condition]
    exact noNull_refused zone
  | initFailed first make => exact (and_iff_left (noFailure (by simp))).symm
  | found entry => exact (and_iff_left (noFailure (by simp))).symm
  | unconfigured absent nowhere => exact (and_iff_left (noFailure (by simp))).symm
  | pending absent somewhere => exact (and_iff_left (noFailure (by simp))).symm
  | tested ran =>
    rw [and_iff_left (noFailure (by simp))]
    exact forall_congr' fun zone => not_congr (sound.passed ran).null_iff

end ServiceMgr

/-! ## Both managers -/

section

variable {κ ω ι : Type} (service : Service κ ω ι) (configer : Configer)

open ServiceMgr

/-- The map owns the live clients behind exactly those runs that make no second client for a zone
and find no client offline, and all calls for a zone return the same, a client or a null pointer,
along any part of a run that keeps its result. -/
structure OneClientPerZone : Prop where
  owned_iff : ∀ {trace last},
    (serviceMachine service configer).Run (.new service configer) trace last →
    (last.Owned ↔ (serviceMachine service configer).Throughout
      (fun mgr event => mgr.FirstForZone service event ∧ ∀ zone, ¬mgr.Evicts service event zone)
      (.new service configer) trace)
  same : ∀ {front middle trace last zone},
    (serviceMachine service configer).Run (.new service configer) front middle →
    (serviceMachine service configer).Run middle trace last →
    (serviceMachine service configer).Throughout
      (fun mgr event => mgr.KeepsResult service configer event zone) middle trace →
    ∃ result, ∀ event other, (event, some (zone, other)) ∈ trace → other = result

/-- The map is free of null pointers behind exactly those runs in which no attempt fails for a zone
without an entry. A call for a zone without a client then connects exactly when the redis item of
the zone has an address and a port, and it returns a client when that succeeds. -/
structure KeepsConnecting : Prop where
  noNull_iff : ∀ {trace last},
    (serviceMachine service configer).Run (.new service configer) trace last →
    (last.NoNull ↔ (serviceMachine service configer).Throughout
      (fun mgr event => mgr.NotFirstFailure service event) (.new service configer) trace)
  attempts_iff : ∀ {trace last thread zone answer next},
    (serviceMachine service configer).Run (.new service configer) trace last →
    (serviceMachine service configer).Throughout
      (fun mgr event => mgr.NotFirstFailure service event) (.new service configer) trace →
    last.holds zone = none →
    (serviceMachine service configer).Steps last (.lookup thread zone) answer next →
    (next.calls[thread]? = some (zone, lazyInfo configer zone) ↔
      ConnectsTo (lazyInfo configer zone))
  returns : ∀ {trace last thread zone info outcome answer next},
    (serviceMachine service configer).Run (.new service configer) trace last →
    last.calls[thread]? = some (zone, info) →
    (serviceMachine service configer).Steps last (.connect thread outcome) answer next →
    service.connects outcome = true → ∃ pClient, answer = some (zone, some pClient)

variable {service configer}

/-- Runs keep the map sound. -/
theorem ServiceMgr.sound_of_run {trace : List (MgrEvent ω ι × Option (Int × Option Nat))}
    {last : ServiceMgr κ}
    (ran : (serviceMachine service configer).Run (.new service configer) trace last) : last.Sound :=
  ran.preserved (fun sound steps => sound.step steps) sound_new

/-- Runs keep the calls in progress to zones that can be connected to. -/
theorem ServiceMgr.connecting_of_run {trace : List (MgrEvent ω ι × Option (Int × Option Nat))}
    {last : ServiceMgr κ}
    (ran : (serviceMachine service configer).Run (.new service configer) trace last) :
    last.Connecting configer := by
  have start : (new service configer).Connecting configer := by
    intro thread zone info call
    simp [new] at call
  have kept : ∀ {mgr event answer next}, mgr.Sound ∧ mgr.Connecting configer →
      (serviceMachine service configer).Steps mgr event answer next →
        next.Sound ∧ next.Connecting configer := by
    rintro mgr event answer next ⟨sound, connecting⟩ steps
    exact ⟨sound.step steps, sound.connecting_step steps connecting⟩
  exact (ran.preserved kept ⟨sound_new, start⟩).2

/-- This holds of every kind of clients. -/
theorem ServiceMgr.oneClientPerZone : OneClientPerZone service configer where
  owned_iff := by
    intro trace last ran
    have start : (new service configer).Owned := by
      rw [sound_new.owned_iff]
      intro pClient alive
      rw [Live, new, Heap.get?_empty] at alive
      cases alive
    have run := ran.last_iff (fun sound steps => sound.step steps)
      (fun sound steps => sound.owned_step steps) sound_new
    rw [run, and_iff_right start]
  same := by
    intro front middle trace last zone before ran meets
    exact (sound_of_run before).answers_same (connecting_of_run before) ran meets

@[inherit_doc ServiceMgr.oneClientPerZone]
theorem ServiceMgr.keepsConnecting : KeepsConnecting service configer := by
  have noNull_iff : ∀ {trace last},
    (serviceMachine service configer).Run (.new service configer) trace last →
      (last.NoNull ↔ (serviceMachine service configer).Throughout
        (fun mgr event => mgr.NotFirstFailure service event) (.new service configer) trace) := by
    intro trace last ran
    have start : (new service configer).NoNull := by
      intro zone
      simp [new]
    have run := ran.last_iff (fun sound steps => sound.step steps)
      (fun sound steps => sound.noNull_step steps) sound_new
    rw [run, and_iff_right start]
  refine ⟨noNull_iff, ?_, ?_⟩
  · intro trace last thread zone answer next ran meets vacant steps
    have idle : last.calls[thread]? = none := by
      have possible := steps.1
      simpa [serviceMachine, enabled] using possible
    cases effect_of_steps steps with
    | @found _ _ pClient entry =>
      -- an entry that holds nothing is a null pointer
      have null : last.clientMap[zone]? = some none := by
        cases pClient with
        | none => exact entry
        | some pClient =>
          rw [holds_eq_some.mpr entry] at vacant
          cases vacant
      exact absurd null ((noNull_iff ran).mpr meets zone)
    | unconfigured absent nowhere => simp [idle, nowhere]
    | pending absent somewhere => simp [somewhere]
  · intro trace last thread zone info outcome answer next ran call steps succeeds
    cases effect_of_steps steps with
    | @connected _ _ zone' info' client call' make =>
      rw [call] at call'
      cases call'
      exact ⟨_, rfl⟩
    | refused call' make =>
      rw [not_connects_of_make make] at succeeds
      cases succeeds

end

/-- Both managers own one client for each zone as long as no zone gets a second one and no client is
found offline. -/
theorem oneClientPerZone_iff (configer : Configer) :
    OneClientPerZone redisService configer ∧ OneClientPerZone sqlService configer :=
  ⟨ServiceMgr.oneClientPerZone, ServiceMgr.oneClientPerZone⟩

/-- A configuration with one item of each kind for one zone. -/
def twoItems : Configer :=
  { Configer.new with
    configMysqlMap := Std.ExtTreeMap.insertIfNew ∅ 1
      ⟨bytes "10.0.0.1", bytes "3306", bytes "seal", bytes "secret", bytes "sealdb"⟩
    configRedisMap := Std.ExtTreeMap.insertIfNew ∅ 1
      ⟨bytes "10.0.0.2", bytes "6379", bytes "cache", bytes "other", []⟩ }

/-- A client that is offline in two passes leaves the map and is not deleted. -/
theorem evicted_client_remains : ∃ trace last,
    (serviceMachine sqlService twoItems).Run (.new sqlService twoItems) trace last ∧
      trace.map Prod.fst = [.init ⟨true, true, 0⟩, .testOnLine fun _ => (1, ⟨true, false, 0⟩),
        .testOnLine fun _ => (1, ⟨true, false, 0⟩)] ∧
      last.calls = ∅ ∧ ¬last.Owned := by
  obtain ⟨trace, last, ran, events, facts⟩ := Machine.run_of_exec_any
    (fun last => last.calls.isEmpty && last.clientMap.isEmpty && (last.clients.get? 0).isSome)
    (show ((serviceMachine sqlService twoItems).exec (.new sqlService twoItems)
      [.init ⟨true, true, 0⟩, .testOnLine fun _ => (1, ⟨true, false, 0⟩),
        .testOnLine fun _ => (1, ⟨true, false, 0⟩)]).any _ = true by decide +kernel)
  simp only [Bool.and_eq_true, Std.ExtTreeMap.isEmpty_iff] at facts
  obtain ⟨⟨calls, map⟩, alive⟩ := facts
  refine ⟨trace, last, ran, events, calls, fun owned => ?_⟩
  obtain ⟨zone, held⟩ := (owned.covered 0).mp alive
  simp [ServiceMgr.holds, map] at held

/-- Both managers keep their maps free of null pointers as long as no attempt fails for a zone
without an entry, and then go on connecting. What `GetRedisClient` reads has an address and a port
when the redis item of the zone does. -/
theorem failedConnect_iff (configer : Configer) :
    KeepsConnecting redisService configer ∧ KeepsConnecting sqlService configer ∧
      ∀ zone item, configer.configRedisMap[zone]? = some item → ServiceMgr.ConnectsTo item →
        ServiceMgr.ConnectsTo (ServiceMgr.lazyInfo configer zone) := by
  refine ⟨ServiceMgr.keepsConnecting, ServiceMgr.keepsConnecting,
    fun zone item configured somewhere => ?_⟩
  have reads : ServiceMgr.lazyInfo configer zone = { item with stDbname := [] } := by
    simp [ServiceMgr.lazyInfo, Configer.getConfigInfo, configured]
  rw [reads]
  exact somewhere

/-- Behind one failed attempt a zone has a null pointer, and later calls return it. -/
theorem failed_connect_poisons : ∃ trace last,
    (serviceMachine redisService twoItems).Run (.new redisService twoItems) trace last ∧
      trace.map Prod.fst = [.init ⟨0, 0, .err⟩, .lookup 0 1, .connect 0 ⟨0, 0, .err⟩] ∧
      ¬last.NoNull ∧
      (serviceMachine redisService twoItems).Steps last (.lookup 0 1) (some (1, none)) last := by
  obtain ⟨trace, last, ran, events, facts⟩ := Machine.run_of_exec_any
    (fun last => last.clientMap[(1 : Int)]? == some none && last.calls[(0 : Nat)]? == none)
    (show ((serviceMachine redisService twoItems).exec (.new redisService twoItems)
      [.init ⟨0, 0, .err⟩, .lookup 0 1, .connect 0 ⟨0, 0, .err⟩]).any _ = true by decide +kernel)
  simp only [Bool.and_eq_true, beq_iff_eq] at facts
  obtain ⟨null, idle⟩ := facts
  refine ⟨trace, last, ran, events, fun noNull => noNull 1 null, ?_, ?_⟩
  · simp [serviceMachine, ServiceMgr.enabled, idle]
  · simp [serviceMachine, ServiceMgr.step, ServiceMgr.lookup, null]

end NetServer
