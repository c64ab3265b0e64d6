import Stylebook.Analysis.Report
import Stylebook.Cache.Basic

/-!
Requests for reports: a lookup, and where it leads, the computation and its finish.
-/

namespace Stylebook

/-- How a computation ends: with a result, or in a panic that may carry a message. -/
inductive Attempt where
  | finished (result : Except AnalysisError Report)
  | panicked (message : Option String)
  deriving Inhabited

def Attempt.outcome : Attempt → Except AnalysisError Report
  | finished result => result
  | panicked message => .error (.panicked (message.getD "unknown panic"))

/-- The answer to a request. A request waits if it joins a computation. -/
inductive Answer where
  | stored (report : Report)
  | computed (outcome : Except AnalysisError Report)
  | waiting (flight : Nat)
  deriving Inhabited

namespace Answer

def outcome? : Answer → Option (Except AnalysisError Report)
  | stored report => some (.ok report)
  | computed outcome => some outcome
  | waiting _ => none

def ranComputation : Answer → Bool
  | computed _ => true
  | _ => false

end Answer

namespace Cache

/-- A request for a report. The computation may itself use the cache, in which its own
key is under way meanwhile; it passes on a value of its own beside the attempt. -/
def requestWith (cache : Cache Report) (key : CacheKey)
    (compute : Cache Report → Attempt × α × Cache Report) :
    Answer × Option α × Cache Report :=
  match cache.lookup key with
  | (.hit report, cache) => (.stored report, none, cache)
  | (.join flight, cache) => (.waiting flight, none, cache)
  | (.lead _, cache) =>
      let (attempt, extra, cache) := compute cache
      (.computed attempt.outcome, some extra, cache.finish key attempt.outcome)

def request (cache : Cache Report) (key : CacheKey) (attempt : Attempt) :
    Answer × Cache Report :=
  let (answer, _, cache) := cache.requestWith key fun cache => (attempt, (), cache)
  (answer, cache)

def lookups (cache : Cache Report) (key : CacheKey) : Nat → List (Lookup Report) × Cache Report
  | 0 => ([], cache)
  | count + 1 =>
      let (first, cache) := cache.lookup key
      let (later, cache) := cache.lookups key count
      (first :: later, cache)

def outcomeAfter (outcome : Except AnalysisError Report) :
    Lookup Report → Except AnalysisError Report
  | .hit report => .ok report
  | .join _ => outcome
  | .lead _ => outcome

/-- Requests for one key that are all made before a computation for it ends. The first
that leads runs the attempt, and its outcome is that of all who join. -/
def requestTogether (cache : Cache Report) (key : CacheKey) (count : Nat) (attempt : Attempt) :
    List (Except AnalysisError Report) × Cache Report :=
  let (found, cache) := cache.lookups key count
  let leads := found.any fun lookup => match lookup with | .lead _ => true | _ => false
  (found.map (outcomeAfter attempt.outcome),
    if leads then cache.finish key attempt.outcome else cache)

end Cache

/-! ## Summaries -/

def CacheStats.summary (stats : CacheStats) : String :=
  "CacheStats \x7b hits: " ++ toString stats.hits ++ ", misses: " ++ toString stats.misses ++
    ", coalesced: " ++ toString stats.coalesced ++ ", evictions: " ++ toString stats.evictions ++
    ", entries: " ++ toString stats.entries ++ " \x7d"

def Cache.summary (cache : Cache Value) : String :=
  "AnalysisCache \x7b capacity: " ++ toString cache.capacity ++ ", stats: " ++
    cache.stats.summary ++ " \x7d"

end Stylebook
