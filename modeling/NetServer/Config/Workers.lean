import NetServer.Config.Dropped
import NetServer.Connection.Handover

/-!
# The number of workers, from the file to `PushTask`

`main` passes `GetCfgThreads` to the event loops, which make that many workers and select one by a
remainder. The number is what `atoi` makes of the last `threads=` line that `OnInit` reaches, and
nothing checks it.
-/

namespace NetServer

open Lib Configer

/-- The value of a `threads=` line. -/
def threadsValue (text : Bytes) : Option Bytes :=
  if (bytes "threads=").isPrefixOf text then some (text.drop 8) else none

/-- The value of the last `threads=` line. -/
def lastThreads (texts : List Bytes) : Option Bytes := (texts.filterMap threadsValue).getLast?

namespace Configer

/-- Data sources do not concern the number of workers. -/
theorem sourceDataItme_threads (configer : Configer) (str : Bytes) :
    (configer.sourceDataItme str).2.threads = configer.threads := by
  unfold sourceDataItme
  split
  · rfl
  · split_ifs
    · rfl
    · split <;> rfl
    · rfl
    · rfl

/-- What a line does to the number of workers. -/
theorem paraseLine_threads (configer : Configer) (str : Bytes) :
    (configer.paraseLine str).2.threads = ((threadsValue str).map atoi).getD configer.threads := by
  have spelling : bytes "threads=" = bytes "threads" ++ [61] := by decide
  unfold threadsValue
  split_ifs with isThreads
  · obtain ⟨value, rfl⟩ := List.isPrefixOf_iff_prefix.mp isThreads
    have value_eq : (bytes "threads=" ++ value).drop 8 = value := List.drop_left' (by decide)
    have found : find (bytes "=") (bytes "threads=" ++ value) = some 7 := by
      rw [spelling, List.append_assoc]
      exact find_single_append (by decide) value
    have header : (bytes "threads=" ++ value).take 7 = bytes "threads" := by
      rw [spelling, List.append_assoc]
      exact List.take_left' (by decide)
    rw [value_eq, paraseLine, performanceItem, found]
    simp only [header, value_eq, ↓reduceIte]
    rfl
  · have other : (configer.performanceItem str).2.threads = configer.threads := by
      unfold performanceItem
      cases found : find (bytes "=") str with
      | none => rfl
      | some pos =>
        have notThreads : str.take pos ≠ bytes "threads" := by
          intro isHeader
          obtain ⟨before, after, rfl, rfl, -⟩ := find_eq_some (by decide) found
          rw [List.append_assoc, List.take_left] at isHeader
          apply isThreads
          rw [List.isPrefixOf_iff_prefix, isHeader, spelling]
          exact ⟨after, rfl⟩
        simp only [notThreads, ↓reduceIte]
        split_ifs <;> rfl
    unfold paraseLine
    split
    · rename_i configer' item
      rw [item] at other
      exact other
    · rename_i configer' item
      rw [item] at other
      rw [sourceDataItme_threads]
      exact other

/-- The last line counts. -/
theorem parased_threads (configer : Configer) (texts : List Bytes) :
    (parased configer texts).threads = ((lastThreads texts).map atoi).getD configer.threads := by
  induction texts using List.reverseRecOn with
  | nil => rfl
  | append_singleton texts text ih =>
    rw [parased, List.foldl_concat, ← parased, paraseLine_threads, ih, lastThreads, lastThreads,
      List.filterMap_append]
    cases isValue : threadsValue text with
    | none => simp [isValue]
    | some value => simp [isValue]

end Configer

/-- The workers that `main` makes for a configuration: there is one, and every descriptor selects
one of them. -/
structure UsableWorkers (configer : Configer) : Prop where
  positive : 1 ≤ configer.getCfgThreads
  array : 0 < (EventBaseMgr.new configer.getCfgThreads).pipes.length
  divides : (EventBaseMgr.new configer.getCfgThreads).iThreadnum ≠ 0
  inside : ∀ sockfd : Int, 0 ≤ sockfd →
    0 ≤ sockfd.tmod (EventBaseMgr.new configer.getCfgThreads).iThreadnum ∧
      sockfd.tmod (EventBaseMgr.new configer.getCfgThreads).iThreadnum <
        (EventBaseMgr.new configer.getCfgThreads).iThreadnum
  pushes : ∀ sockfd : Int, 0 ≤ sockfd → ∀ written,
    ∃ mgr, (EventBaseMgr.new configer.getCfgThreads).pushTask sockfd written = .ok (written, mgr)

/-- One worker is enough. -/
theorem usableWorkers_of_positive {configer : Configer} (positive : 1 ≤ configer.getCfgThreads) :
    UsableWorkers configer := by
  have inside (sockfd : Int) (valid : 0 ≤ sockfd) :
      0 ≤ sockfd.tmod configer.getCfgThreads ∧ sockfd.tmod configer.getCfgThreads <
        configer.getCfgThreads := by
    rw [Int.tmod_eq_emod_of_nonneg valid]
    exact ⟨Int.emod_nonneg _ (by omega), Int.emod_lt_of_pos _ (by omega)⟩
  refine ⟨positive, ?_, ?_, inside, ?_⟩
  · rw [EventBaseMgr.new, List.length_replicate]
    omega
  · show configer.getCfgThreads ≠ 0
    omega
  · intro sockfd valid written
    have index : (sockfd.tmod configer.getCfgThreads).toNat < configer.getCfgThreads.toNat := by
      have := inside sockfd valid
      omega
    rw [EventBaseMgr.pushTask, if_neg (Int.not_lt.mpr valid), EventBaseMgr.new,
      if_neg (by simp only; omega)]
    simp only [List.getElem?_replicate_of_lt index]
    cases written
    · exact ⟨_, rfl⟩
    · exact ⟨_, rfl⟩

/-- The number of workers of an accepted file. -/
theorem onInit_threads {contents : Bytes}
    (accepted : (Configer.new.onInit (some contents)).1 = true) :
    (Configer.new.onInit (some contents)).2.getCfgThreads =
      ((lastThreads (handed 0 (contents.splitOn 10))).map atoi).getD 10 := by
  obtain ⟨_, -, -, fields⟩ := onInit_handed Configer.new contents
  rw [(fields accepted).2, getCfgThreads, parased_threads]
  rfl

/-- An accepted file gives usable workers exactly when the last `threads=` line that `OnInit`
reaches, if there is one, has a positive number. -/
theorem usableWorkers_iff (contents : Bytes)
    (accepted : (Configer.new.onInit (some contents)).1 = true) :
    UsableWorkers (Configer.new.onInit (some contents)).2 ↔
      ∀ value, lastThreads (handed 0 (contents.splitOn 10)) = some value → 1 ≤ atoi value := by
  have threads := onInit_threads accepted
  constructor
  · intro usable value last
    have positive := usable.positive
    rw [threads, last] at positive
    exact positive
  · intro positive
    apply usableWorkers_of_positive
    rw [threads]
    cases last : lastThreads (handed 0 (contents.splitOn 10)) with
    | none => decide
    | some value => exact positive value last

/-- The last line counts, whatever stood before it. -/
theorem usableWorkers_last :
    UsableWorkers (Configer.new.onInit (some (bytes "threads=0\nthreads=4\n"))).2 := by
  have last : lastThreads (handed 0 ((bytes "threads=0\nthreads=4\n").splitOn 10)) =
      some (bytes "4") := by
    decide +kernel
  obtain ⟨_, -, verdict, -⟩ := onInit_handed Configer.new (bytes "threads=0\nthreads=4\n")
  refine (usableWorkers_iff _ ?_).mpr ?_
  · rw [verdict]
    decide +kernel
  · intro value isLast
    obtain rfl := Option.some.inj (last.symm.trans isLast)
    decide +kernel

/-- A word is zero workers, and the first descriptor is divided by zero. -/
theorem no_workers :
    (Configer.new.onInit (some (bytes "threads=auto\n"))).1 = true ∧
      (Configer.new.onInit (some (bytes "threads=auto\n"))).2.getCfgThreads = 0 ∧
      (EventBaseMgr.new
        (Configer.new.onInit (some (bytes "threads=auto\n"))).2.getCfgThreads).pushTask 5 true =
        .error .divideByZero := by
  obtain ⟨_, -, verdict, -⟩ := onInit_handed Configer.new (bytes "threads=auto\n")
  have accepted : (Configer.new.onInit (some (bytes "threads=auto\n"))).1 = true := by
    rw [verdict]
    decide +kernel
  have none : (Configer.new.onInit (some (bytes "threads=auto\n"))).2.getCfgThreads = 0 := by
    rw [onInit_threads accepted]
    decide +kernel
  refine ⟨accepted, none, ?_⟩
  rw [none]
  rfl

end NetServer
