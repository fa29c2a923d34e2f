import NetServer.Lib.Text
import NetServer.Mysql.Client

/-!
# Retry before eviction

A manager drops a client whose `TestOnline` returns false. The client is meant to try to
reconnect whenever its connection is lost and to give up at the fourth failure in a row. Both
clients lose their connection object with the first failed attempt: `CSqlClient` then reports
itself offline without a further attempt, and `CRedisClient` hands the null pointer to hiredis.
`CRedisClient` also never initialises its count and does not reset it when a ping is answered.
-/

namespace NetServer

open Lib

/-! ## The contract -/

/-- A client that can be tested: what a test does, whether its ping is lost, whether an attempt to
reconnect would fail, and how many failures the client has counted. -/
structure OnlineTest (κ ω : Type) where
  test : κ → ω → Except ClientFault (Tested κ)
  lost : ω → Bool
  refused : ω → Bool
  count : κ → Int

namespace OnlineTest

variable {κ ω : Type} (tester : OnlineTest κ ω)

/-- Both the ping and the attempt to reconnect fail. -/
def fails (outcome : ω) : Bool := tester.lost outcome && tester.refused outcome

/-- A test keeps the contract behind some earlier ones: it returns false exactly when it fails and
at least the three tests before it failed, it tries to reconnect when its ping is lost, and it
resets the count when it does not fail. -/
structure Keeps (history : List ω) (outcome : ω) (tested : Tested κ) : Prop where
  verdict : tested.returns = false ↔
    tester.fails outcome = true ∧ 3 ≤ (history.reverse.takeWhile tester.fails).length
  retries : tester.lost outcome = true → tested.reConnects = true
  resets : tester.fails outcome = false → tester.count tested.client = 0

/-- All tests of a sequence return and keep the contract. -/
def HoldsAlong (history : List ω) (client : κ) : List ω → Prop
  | [] => True
  | outcome :: outcomes =>
    ∃ tested, tester.test client outcome = .ok tested ∧ tester.Keeps history outcome tested ∧
      HoldsAlong (history ++ [outcome]) tested.client outcomes

variable {tester} in
/-- A sequence holds when its first test keeps the contract and the rest of it holds. -/
theorem holdsAlong_cons {history : List ω} {client : κ} {outcome : ω} {tested : Tested κ}
    (test : tester.test client outcome = .ok tested) (outcomes : List ω) :
    tester.HoldsAlong history client (outcome :: outcomes) ↔
      tester.Keeps history outcome tested ∧
      tester.HoldsAlong (history ++ [outcome]) tested.client outcomes := by
  rw [HoldsAlong, test]
  constructor
  · rintro ⟨tested, same, keeps, rest⟩
    cases same
    exact ⟨keeps, rest⟩
  · exact fun both => ⟨tested, rfl, both⟩

/-- No test follows one that fails. -/
def FailsLast (outcomes : List ω) : Prop :=
  OnlyLast (fun outcome => tester.fails outcome = true) outcomes

variable {tester} {outcome : ω} {outcomes : List ω}

/-- A test that does not fail may be followed by any. -/
theorem failsLast_cons_of_ok (succeeds : tester.fails outcome = false) :
    tester.FailsLast (outcome :: outcomes) ↔ tester.FailsLast outcomes :=
  @onlyLast_cons_of_not _ (fun outcome => tester.fails outcome = true) _ (by simp [succeeds]) _

/-- A test that fails is not followed by another. -/
theorem failsLast_cons_of_fails (failed : tester.fails outcome = true) :
    tester.FailsLast (outcome :: outcomes) ↔ outcomes = [] :=
  @onlyLast_cons _ (fun outcome => tester.fails outcome = true) _ failed _

/-- What both clients do from a state with a connection and a count of zero: a test that succeeds
leads back to such a state, and behind one that fails no test returns true. -/
structure GivesUp (tester : OnlineTest κ ω) (ready : κ → Prop) : Prop where
  count : ∀ {client}, ready client → tester.count client = 0
  succeeds : ∀ {client outcome}, ready client → tester.fails outcome = false →
    ∃ next, tester.test client outcome = .ok ⟨next, tester.lost outcome, true⟩ ∧ ready next
  fails : ∀ {client outcome}, ready client → tester.fails outcome = true →
    ∃ next, tester.test client outcome = .ok ⟨next, true, true⟩ ∧
      ∀ outcome' tested, tester.test next outcome' = .ok tested → tested.returns = false

/-- Without a failure in the past, a test may only return true. -/
theorem keeps_iff {history : List ω} (clean : ∀ earlier ∈ history, tester.fails earlier = false)
    {tested : Tested κ} : tester.Keeps history outcome tested ↔ tested.returns = true ∧
      (tester.lost outcome = true → tested.reConnects = true) ∧
      (tester.fails outcome = false → tester.count tested.client = 0) := by
  have none : history.reverse.takeWhile tester.fails = [] := by
    cases reversed : history.reverse with
    | nil => rfl
    | cons last earlier =>
      have inHistory : last ∈ history := List.mem_reverse.mp (reversed ▸ List.mem_cons_self)
      rw [List.takeWhile_cons_of_neg (by simp [clean last inHistory])]
  constructor
  · intro keeps
    refine ⟨?_, keeps.retries, keeps.resets⟩
    by_contra offline
    have few := (keeps.verdict.mp (by simpa using offline)).2
    rw [none] at few
    cases few
  · rintro ⟨online, retries, resets⟩
    refine ⟨⟨fun offline => ?_, fun few => ?_⟩, retries, resets⟩
    · rw [online] at offline
      cases offline
    · have three := few.2
      rw [none] at three
      cases three

/-- A failed test is the last one that keeps the contract. -/
theorem not_keeps_after {history : List ω}
    (clean : ∀ earlier ∈ history, tester.fails earlier = false) {failed : ω} {tested : Tested κ}
    (offline : tested.returns = false) : ¬tester.Keeps (history ++ [failed]) outcome tested := by
  intro keeps
  have three := (keeps.verdict.mp offline).2
  have few : ((history ++ [failed]).reverse.takeWhile tester.fails).length ≤ 1 := by
    rw [List.reverse_append, List.reverse_singleton, List.singleton_append]
    cases reversed : history.reverse with
    | nil =>
      have bound := (List.takeWhile_prefix (l := [failed]) tester.fails).length_le
      exact bound
    | cons last earlier =>
      have inHistory : last ∈ history := List.mem_reverse.mp (reversed ▸ List.mem_cons_self)
      by_cases isFailed : tester.fails failed = true
      · rw [List.takeWhile_cons_of_pos isFailed,
          List.takeWhile_cons_of_neg (by simp [clean last inHistory])]
        rfl
      · rw [List.takeWhile_cons_of_neg isFailed]
        exact Nat.zero_le 1
  omega

/-- From such a state the contract holds along a sequence of tests exactly when none follows one
that fails. The induction is on the sequence; all tests before its rest have succeeded. -/
theorem GivesUp.holdsAlong_iff {ready : κ → Prop} (policy : tester.GivesUp ready) {client : κ}
    (isReady : ready client) {history : List ω}
    (clean : ∀ earlier ∈ history, tester.fails earlier = false) (outcomes : List ω) :
    tester.HoldsAlong history client outcomes ↔ tester.FailsLast outcomes := by
  induction outcomes generalizing client history with
  | nil => exact ⟨fun _ => onlyLast_nil, fun _ => trivial⟩
  | cons outcome outcomes ih =>
    cases failed : tester.fails outcome with
    | false =>
      obtain ⟨next, test, nextReady⟩ := policy.succeeds isReady failed
      have keeps : tester.Keeps history outcome ⟨next, tester.lost outcome, true⟩ :=
        (keeps_iff clean).mpr ⟨rfl, id, fun _ => policy.count nextReady⟩
      have clean' : ∀ earlier ∈ history ++ [outcome], tester.fails earlier = false := by
        intro earlier inHistory
        rcases List.mem_append.mp inHistory with before | isLast
        · exact clean earlier before
        · rw [List.mem_singleton.mp isLast, failed]
      rw [holdsAlong_cons test, failsLast_cons_of_ok failed, ← ih nextReady clean']
      exact and_iff_right keeps
    | true =>
      obtain ⟨next, test, offline⟩ := policy.fails isReady failed
      have keeps : tester.Keeps history outcome ⟨next, true, true⟩ :=
        (keeps_iff clean).mpr ⟨rfl, fun _ => rfl, fun ok =>
          absurd (failed.symm.trans ok) (by decide)⟩
      rw [holdsAlong_cons test, failsLast_cons_of_fails failed]
      constructor
      · rintro ⟨-, rest⟩
        cases outcomes with
        | nil => rfl
        | cons outcome' outcomes =>
          obtain ⟨tested', test', keeps', -⟩ := rest
          exact absurd keeps' (not_keeps_after clean (offline outcome' tested' test'))
      · rintro rfl
        exact ⟨keeps, trivial⟩

end OnlineTest

/-! ## `CSqlClient` -/

/-- Tests of a `CSqlClient`. -/
def sqlTest : OnlineTest SqlClient (Int × SqlConnect) where
  test client outcome := .ok (client.testOnline outcome.1 outcome.2)
  lost outcome := decide (outcome.1 ≠ 0)
  refused outcome := !outcome.2.succeeds
  count client := client.iReconnectCount

/-- A `CSqlClient` without a handle is offline for good. -/
theorem sqlTest_givesUp :
    sqlTest.GivesUp fun client => client.sqlHandle = true ∧ client.iReconnectCount = 0 where
  count isReady := isReady.2
  succeeds := by
    rintro client ⟨ping, connect⟩ ⟨handle, zero⟩ ok
    by_cases answered : ping = 0
    · subst answered
      refine ⟨{ client with iReconnectCount := 0 }, ?_, handle, rfl⟩
      simp only [sqlTest, SqlClient.testOnline_answered handle]
      rfl
    · have connects : connect.succeeds = true := by
        simpa [OnlineTest.fails, sqlTest, answered] using ok
      refine ⟨{ client with iReconnectCount := 0, sqlHandle := true }, ?_, rfl, rfl⟩
      simp [sqlTest, SqlClient.testOnline_reconnected handle answered connects, answered]
  fails := by
    rintro client ⟨ping, connect⟩ ⟨handle, zero⟩ failed
    have both : ping ≠ 0 ∧ connect.succeeds = false := by
      simpa [OnlineTest.fails, sqlTest] using failed
    have first : toInt (client.iReconnectCount + 1) = 1 := by
      rw [zero]
      rfl
    refine ⟨{ client with iReconnectCount := 1, sqlHandle := false }, congrArg Except.ok ?_, ?_⟩
    · rw [SqlClient.testOnline_failed handle both.1 both.2, first]
      rfl
    · intro outcome' tested test
      have offline :
        sqlTest.test { client with iReconnectCount := 1, sqlHandle := false } outcome' =
          .ok ⟨{ client with iReconnectCount := 1, sqlHandle := false }, false, false⟩ :=
        congrArg Except.ok (SqlClient.testOnline_offline rfl)
      rw [offline] at test
      cases test
      rfl

/-! ## `CRedisClient` -/

/-- Tests of a `CRedisClient`. -/
def redisTest : OnlineTest RedisClient (Option RedisReply × RedisConnect) where
  test client outcome := client.testOnline outcome.1 outcome.2
  lost outcome := outcome.1.isNone
  refused outcome := decide (outcome.2 ≠ .connected)
  count client := client.iReconnectCount

/-- A `CRedisClient` without a context crashes at the next test. -/
theorem redisTest_givesUp :
    redisTest.GivesUp fun client => client.pRedisContext = true ∧ client.iReconnectCount = 0 where
  count isReady := isReady.2
  succeeds := by
    rintro client ⟨ping, connect⟩ ⟨context, zero⟩ ok
    cases ping with
    | some reply => exact ⟨client, RedisClient.testOnline_answered context reply, context, zero⟩
    | none =>
      have connects : connect = .connected := by
        simpa [OnlineTest.fails, redisTest] using ok
      subst connects
      exact ⟨_, RedisClient.testOnline_reconnected context, rfl, rfl⟩
  fails := by
    rintro client ⟨ping, connect⟩ ⟨context, zero⟩ failed
    have both : ping = none ∧ connect ≠ .connected := by
      simpa [OnlineTest.fails, redisTest] using failed
    obtain ⟨rfl, refused⟩ := both
    have first : toInt (client.iReconnectCount + 1) = 1 := by
      rw [zero]
      rfl
    refine ⟨{ client with iReconnectCount := 1, pRedisContext := false }, ?_, ?_⟩
    · have test := RedisClient.testOnline_failed context refused
      rw [first] at test
      exact test
    · intro outcome' tested test
      have null :
        redisTest.test { client with iReconnectCount := 1, pRedisContext := false } outcome' =
          .error .nullContext := RedisClient.testOnline_null rfl
      rw [null] at test
      cases test

section

variable {client : RedisClient} {connect : RedisConnect}
  {outcomes : List (Option RedisReply × RedisConnect)}

/-- An answered ping does not reset the count. -/
theorem redis_first_answered (context : client.pRedisContext = true) (reply : RedisReply)
    (garbage : client.iReconnectCount ≠ 0) :
    ¬redisTest.HoldsAlong [] client ((some reply, connect) :: outcomes) := by
  have test : redisTest.test client (some reply, connect) = .ok ⟨client, false, true⟩ :=
    RedisClient.testOnline_answered context reply
  rw [OnlineTest.holdsAlong_cons test]
  exact fun both => garbage (both.1.resets rfl)

/-- A reconnect does. -/
theorem redis_first_reconnected (context : client.pRedisContext = true) :
    redisTest.HoldsAlong [] client ((none, .connected) :: outcomes) ↔
      redisTest.FailsLast outcomes := by
  have test : redisTest.test client (none, .connected) =
      .ok ⟨{ client with iReconnectCount := 0, pRedisContext := true }, true, true⟩ :=
    RedisClient.testOnline_reconnected context
  have keeps : redisTest.Keeps [] (none, .connected)
      ⟨{ client with iReconnectCount := 0, pRedisContext := true }, true, true⟩ :=
    (OnlineTest.keeps_iff (by simp)).mpr ⟨rfl, fun _ => rfl, fun _ => rfl⟩
  have clean : ∀ earlier ∈ [((none, .connected) : Option RedisReply × RedisConnect)],
      redisTest.fails earlier = false := by
    intro earlier inHistory
    rw [List.mem_singleton.mp inHistory]
    rfl
  have rest := @OnlineTest.GivesUp.holdsAlong_iff _ _ redisTest _ redisTest_givesUp
    { client with iReconnectCount := 0, pRedisContext := true } ⟨rfl, rfl⟩ _ clean outcomes
  rw [OnlineTest.holdsAlong_cons test, ← rest]
  exact and_iff_right keeps

/-- A failure is reported as online when the count is small, and nothing may follow it. -/
theorem redis_first_failed (context : client.pRedisContext = true)
    (refused : connect ≠ .connected) :
    redisTest.HoldsAlong [] client ((none, connect) :: outcomes) ↔
      outcomes = [] ∧ toInt (client.iReconnectCount + 1) ≤ 3 := by
  have test : redisTest.test client (none, connect) =
      .ok ⟨{ client with
        iReconnectCount := toInt (client.iReconnectCount + 1), pRedisContext := false }, true,
        !decide (toInt (client.iReconnectCount + 1) > 3)⟩ :=
    RedisClient.testOnline_failed context refused
  have failed : redisTest.fails (none, connect) = true := by
    simp [OnlineTest.fails, redisTest, refused]
  rw [OnlineTest.holdsAlong_cons test, OnlineTest.keeps_iff (by simp)]
  constructor
  · rintro ⟨⟨online, -⟩, rest⟩
    refine ⟨?_, by simpa using online⟩
    cases outcomes with
    | nil => rfl
    | cons outcome' outcomes =>
      obtain ⟨tested, test', -⟩ := rest
      have null : redisTest.test
          { client with
            iReconnectCount := toInt (client.iReconnectCount + 1), pRedisContext := false }
          outcome' =
          .error .nullContext := RedisClient.testOnline_null rfl
      rw [null] at test'
      cases test'
  · rintro ⟨rfl, small⟩
    refine ⟨⟨by simpa using small, fun _ => rfl, fun ok => ?_⟩, trivial⟩
    rw [failed] at ok
    cases ok

/-- The first test of a `CRedisClient` shows what its memory held as the count: it has to be zero,
or to be overwritten by a reconnect, or to be small enough for one failure. -/
theorem redisTest_holdsAlong_iff (context : client.pRedisContext = true) :
    redisTest.HoldsAlong [] client outcomes ↔ redisTest.FailsLast outcomes ∧
      ∀ first ∈ outcomes.head?, client.iReconnectCount = 0 ∨ redisTest.lost first = true ∧
        (redisTest.refused first = true → toInt (client.iReconnectCount + 1) ≤ 3) := by
  by_cases zero : client.iReconnectCount = 0
  · rw [redisTest_givesUp.holdsAlong_iff ⟨context, zero⟩ (by simp)]
    simp [zero]
  · cases outcomes with
    | nil => exact ⟨fun _ => ⟨onlyLast_nil, fun first inEmpty => nomatch inEmpty⟩, fun _ => trivial⟩
    | cons outcome outcomes =>
      obtain ⟨ping, connect⟩ := outcome
      simp only [List.head?_cons, Option.mem_some_iff, forall_eq', zero, false_or]
      cases ping with
      | some reply =>
        have notLost : ¬redisTest.lost (some reply, connect) = true := Bool.false_ne_true
        exact ⟨fun holds => absurd holds (redis_first_answered context reply zero),
          fun both => absurd both.2.1 notLost⟩
      | none =>
        by_cases connects : connect = .connected
        · subst connects
          rw [redis_first_reconnected context, OnlineTest.failsLast_cons_of_ok rfl]
          simp [redisTest]
        · have failed : redisTest.fails (none, connect) = true := by
            simp [OnlineTest.fails, redisTest, connects]
          rw [redis_first_failed context connects, OnlineTest.failsLast_cons_of_fails failed]
          simp [redisTest, connects]

end

/-! ## Both clients -/

/-- A `CSqlClient` whose `OnInit` succeeded. -/
def SqlClient.Initialised (client : SqlClient) : Prop :=
  ∃ memory memory' address port user password dbName flag connect,
    (SqlClient.new memory memory').onInit address port user password dbName flag connect =
      (true, client)

/-- A `CRedisClient` whose `OnInit` succeeded, where the memory held `iReconnectCount` as its
count. -/
def RedisClient.Initialised (iReconnectCount : Int) (client : RedisClient) : Prop :=
  ∃ memory address port connect,
    (RedisClient.new memory iReconnectCount).onInit address port connect = (true, client)

/-- A client that `OnInit` has connected has a handle and has counted nothing. -/
theorem SqlClient.Initialised.ready {client : SqlClient} (initialised : client.Initialised) :
    client.sqlHandle = true ∧ client.iReconnectCount = 0 := by
  obtain ⟨memory, memory', address, port, user, password, dbName, flag, connect, isClient⟩ :=
    initialised
  rw [onInit, onConnect_eq, Prod.mk.injEq] at isClient
  obtain ⟨connects, rfl⟩ := isClient
  exact ⟨connects, rfl⟩

/-- A client that `OnInit` has connected has a context, and its count is what the memory held. -/
theorem RedisClient.Initialised.ready {iReconnectCount : Int} {client : RedisClient}
    (initialised : client.Initialised iReconnectCount) :
    client.pRedisContext = true ∧ client.iReconnectCount = iReconnectCount := by
  obtain ⟨memory, address, port, connect, isClient⟩ := initialised
  rw [onInit, onConnect_eq, Prod.mk.injEq] at isClient
  obtain ⟨connects, rfl⟩ := isClient
  exact ⟨connects, rfl⟩

/-- From an initialised client, the contract holds along a sequence of tests exactly when no test
follows one that fails and, for a `CRedisClient`, the count its memory held does no harm. -/
theorem retryContract_iff {sqlClient : SqlClient} (sqlInitialised : sqlClient.Initialised)
    (sqlOutcomes : List (Int × SqlConnect)) {iReconnectCount : Int} {redisClient : RedisClient}
    (redisInitialised : redisClient.Initialised iReconnectCount)
    (redisOutcomes : List (Option RedisReply × RedisConnect)) :
    (sqlTest.HoldsAlong [] sqlClient sqlOutcomes ↔ sqlTest.FailsLast sqlOutcomes) ∧
    (redisTest.HoldsAlong [] redisClient redisOutcomes ↔ redisTest.FailsLast redisOutcomes ∧
      ∀ first ∈ redisOutcomes.head?, iReconnectCount = 0 ∨ redisTest.lost first = true ∧
        (redisTest.refused first = true → toInt (iReconnectCount + 1) ≤ 3)) := by
  constructor
  · exact sqlTest_givesUp.holdsAlong_iff sqlInitialised.ready (by simp) sqlOutcomes
  · obtain ⟨context, rfl⟩ := redisInitialised.ready
    exact redisTest_holdsAlong_iff context

/-- The connected MySQL client is initialised. -/
theorem connectedSql_initialised : connectedSql.Initialised :=
  ⟨0, 0, _, _, _, _, _, _, ⟨true, true, 0⟩, rfl⟩

/-- The connected Redis client is initialised. -/
theorem connectedRedis_initialised : connectedRedis.Initialised 0 :=
  ⟨0, _, _, .connected, rfl⟩

/-- A single failure behind an answered ping keeps the contract. -/
theorem retryContract_single_failure :
    sqlTest.HoldsAlong [] connectedSql [(0, ⟨true, true, 0⟩), (1, ⟨true, false, 0⟩)] ∧
      redisTest.HoldsAlong [] connectedRedis [(some (.status (bytes "PONG")), .connected),
        (none, .err)] := by
  obtain ⟨sql, redis⟩ :=
    retryContract_iff connectedSql_initialised [(0, ⟨true, true, 0⟩), (1, ⟨true, false, 0⟩)]
      connectedRedis_initialised [(some (.status (bytes "PONG")), .connected), (none, .err)]
  constructor
  · rw [sql, OnlineTest.failsLast_cons_of_ok rfl, OnlineTest.failsLast_cons_of_fails rfl]
  · rw [redis, OnlineTest.failsLast_cons_of_ok rfl, OnlineTest.failsLast_cons_of_fails rfl]
    exact ⟨rfl, fun first _ => .inl rfl⟩

/-- A `CSqlClient` gives up at the second failure in a row. -/
theorem second_failure_gives_up :
    connectedSql.Initialised ∧
      ¬sqlTest.HoldsAlong [] connectedSql [(1, ⟨true, false, 0⟩), (1, ⟨true, false, 0⟩)] := by
  refine ⟨connectedSql_initialised, ?_⟩
  rw [sqlTest_givesUp.holdsAlong_iff ⟨rfl, rfl⟩ (by simp), OnlineTest.failsLast_cons_of_fails rfl]
  simp

/-! ## Null contexts -/

/-- A call on a `CRedisClient`, with what the server does. The overloads of `ExecCommand` for C
strings make the string and call these. -/
inductive RedisCall where
  | testOnline (ping : Option RedisReply) (connect : RedisConnect)
  | execCommand (reply : Option RedisReply)
  | execString (reply : Option RedisReply) (result : Bytes)
  | execInt (reply : Option RedisReply) (result : Int)
  | execInts (reply : Option RedisReply)
  | execStrings (reply : Option RedisReply) (result : List Bytes)

/-- A call that leaves the client without a connection. -/
def RedisCall.Disconnects : RedisCall → Prop
  | .testOnline ping connect => ping = none ∧ connect ≠ .connected
  | _ => False

namespace RedisClient

/-- The client behind a call. -/
def call (client : RedisClient) : RedisCall → Except ClientFault RedisClient
  | .testOnline ping connect => do
    let tested ← client.testOnline ping connect
    return tested.client
  | .execCommand reply => do
    let _ ← client.execCommand reply
    return client
  | .execString reply result => do
    let _ ← client.execString reply result
    return client
  | .execInt reply result => do
    let _ ← client.execInt reply result
    return client
  | .execInts reply => do
    let _ ← client.execInts reply
    return client
  | .execStrings reply result => do
    let _ ← client.execStrings reply result
    return client

/-- Every `redisCommand` in a sequence of calls gets a context. -/
def NeverNull (client : RedisClient) (calls : List RedisCall) : Prop :=
  ∃ last, calls.foldlM call client = .ok last

variable {client : RedisClient}

/-- No call works without a context. -/
theorem call_null (null : client.pRedisContext = false) (command : RedisCall) :
    client.call command = .error .nullContext := by
  cases command with
  | testOnline ping connect => simp only [call, testOnline_null null]; rfl
  | execCommand reply | execString reply result | execInt reply result | execInts reply
  | execStrings reply result =>
    simp only [call, execCommand, execString, execInt, execInts, execStrings, redisCommand, null,
      Bool.false_eq_true, ↓reduceIte]
    rfl

/-- With a context every call works, and only one that disconnects loses it. -/
theorem call_connected (context : client.pRedisContext = true) (command : RedisCall) :
    ∃ next, client.call command = .ok next ∧
      (next.pRedisContext = false ↔ command.Disconnects) := by
  cases command with
  | testOnline ping connect =>
    cases ping with
    | some reply =>
      refine ⟨client, ?_, ?_⟩
      · simp only [call, testOnline_answered context]
        rfl
      · simp [RedisCall.Disconnects, context]
    | none =>
      by_cases connects : connect = .connected
      · subst connects
        refine ⟨{ client with iReconnectCount := 0, pRedisContext := true }, ?_, ?_⟩
        · simp only [call, testOnline_reconnected context]
          rfl
        · simp [RedisCall.Disconnects]
      · refine ⟨{ client with
            iReconnectCount := toInt (client.iReconnectCount + 1), pRedisContext := false }, ?_, ?_⟩
        · simp only [call, testOnline_failed context connects]
          rfl
        · simp [RedisCall.Disconnects, connects]
  | execCommand reply | execString reply result | execInt reply result | execInts reply
  | execStrings reply result =>
    refine ⟨client, ?_, by simp [RedisCall.Disconnects, context]⟩
    simp only [call, execCommand, execString, execInt, execInts, execStrings, redisCommand, context,
      ↓reduceIte]
    rcases reply with _ | ((_ | _) | _ | _ | _ | _ | _) <;> rfl

/-- A `CRedisClient` never uses a null context in a sequence of calls exactly when none follows a
test whose ping is lost and whose attempt to reconnect fails. -/
theorem neverNull_iff {iReconnectCount : Int} (initialised : client.Initialised iReconnectCount)
    (calls : List RedisCall) : client.NeverNull calls ↔ OnlyLast RedisCall.Disconnects calls := by
  suffices connected : ∀ {client : RedisClient}, client.pRedisContext = true →
      (client.NeverNull calls ↔ OnlyLast RedisCall.Disconnects calls) from
        connected initialised.ready.1
  -- the induction is on the calls; each of them keeps the context or is the last that may follow
  induction calls with
  | nil => exact fun _ => ⟨fun _ => onlyLast_nil, fun _ => ⟨_, rfl⟩⟩
  | cons first calls ih =>
    intro client context
    obtain ⟨next, called, lost⟩ := call_connected context first
    have rest : client.NeverNull (first :: calls) ↔ next.NeverNull calls := by
      simp only [NeverNull, List.foldlM_cons, called]
      rfl
    rw [rest]
    cases kept : next.pRedisContext with
    | true =>
      have harmless : ¬first.Disconnects := by
        rw [← lost, kept]
        decide
      rw [ih kept, onlyLast_cons_of_not harmless]
    | false =>
      rw [onlyLast_cons (lost.mp kept)]
      constructor
      · rintro ⟨last, ran⟩
        cases calls with
        | nil => rfl
        | cons second calls =>
          rw [List.foldlM_cons, call_null kept] at ran
          cases ran
      · rintro rfl
        exact ⟨next, rfl⟩

/-- A command behind an answered one and one failed test at the end get a context. -/
theorem neverNull_last_test :
    connectedRedis.NeverNull [.execInt (some (.integer 2)) 0, .testOnline none .err] := by
  rw [neverNull_iff connectedRedis_initialised,
    onlyLast_cons_of_not (fun disconnects => disconnects.elim)]
  exact (onlyLast_cons ⟨rfl, by decide⟩).mpr rfl

/-- The command behind a failed test gets none. -/
theorem command_after_failed_test :
    connectedRedis.Initialised 0 ∧
      ¬connectedRedis.NeverNull [.testOnline none .err, .execInt (some (.integer 2)) 0] := by
  refine ⟨connectedRedis_initialised, ?_⟩
  rintro ⟨last, ran⟩
  cases ran

end RedisClient

end NetServer
