import DocStore.Mongo.Request
import DocStore.Proofs.MalformedRecords

/-!
# The queries behind a window

What paging asks a backend for. Paging opens one query at most, once the matches are counted and
the arguments are found to be in order, and the options of that query are settled by the request
alone.

Main statement: for every request, filter and backend, a size that is named makes a limit between
one and the greatest signed word, and without a size there is no limit. Only a window by position
skips documents. A backend that takes its limits as signed words accepts the options as they are.

The sizes of a request are signed words of 64 bits, and the options hold unsigned ones. A size is a
number here, so it is shown beside this that reckoning with words gives the same: a size that is
not refused becomes an unsigned word unchanged, and neither its lookahead nor the position behind
the documents that were fetched wraps.
-/

namespace DocStore

/-- The sum of two words, or the greatest word if the sum does not fit. -/
def saturatingSum (first second : UInt64) : UInt64 :=
  if first + second < first then 18446744073709551615 else first + second

/-- A saturating sum is the sum of the numbers, cut to the greatest word. -/
theorem toNat_saturatingSum (first second : UInt64) :
    (saturatingSum first second).toNat =
      min (first.toNat + second.toNat) 18446744073709551615 := by
  have held := first.toNat_lt
  have added := second.toNat_lt
  have wrapped := UInt64.toNat_add first second
  -- a sum that wraps falls below both of its parts
  by_cases wraps : first + second < first
  · have greatest : (18446744073709551615 : UInt64).toNat = 18446744073709551615 := by rfl
    have below := UInt64.lt_iff_toNat_lt.mp wraps
    rw [saturatingSum, if_pos wraps, greatest]
    omega
  · have above : ¬ (first + second).toNat < first.toNat :=
      fun below => wraps (UInt64.lt_iff_toNat_lt.mpr below)
    rw [saturatingSum, if_neg wraps]
    omega

/-- A saturating sum lies below a word exactly when the sum of the numbers does. -/
theorem saturatingSum_lt_iff (first second total : UInt64) :
    saturatingSum first second < total ↔ first.toNat + second.toNat < total.toNat := by
  have held := total.toNat_lt
  rw [UInt64.lt_iff_toNat_lt, toNat_saturatingSum]
  omega

/-- A size together with one document more, as a word that a signed word can hold. -/
def lookaheadWord (size : UInt64) : UInt64 :=
  if 9223372036854775807 < saturatingSum size 1 then 9223372036854775807 else saturatingSum size 1

/-- The lookahead of a word is that of its number, for all words. -/
theorem toNat_lookaheadWord (size : UInt64) :
    (lookaheadWord size).toNat = lookahead size.toNat := by
  have greatest : (9223372036854775807 : UInt64).toNat = 9223372036854775807 := by rfl
  have sum : (saturatingSum size 1).toNat = min (size.toNat + 1) 18446744073709551615 :=
    toNat_saturatingSum size 1
  unfold lookahead sizeLimit
  by_cases beyond : 9223372036854775807 < saturatingSum size 1
  · have above := UInt64.lt_iff_toNat_lt.mp beyond
    rw [lookaheadWord, if_pos beyond]
    omega
  · have within : ¬ (9223372036854775807 : UInt64).toNat < (saturatingSum size 1).toNat :=
      fun above => beyond (UInt64.lt_iff_toNat_lt.mpr above)
    rw [lookaheadWord, if_neg beyond]
    omega

/-- A limit of at most `sizeLimit` is the same number as a signed word. -/
theorem toInt_limit {limit : Nat} (within : limit ≤ sizeLimit) :
    (UInt64.ofNat limit).toInt64.toInt = limit := by
  rw [UInt64.toInt64_ofNat']
  exact Int64.toInt_ofNat_of_lt (Nat.lt_of_le_of_lt within (by decide))

/-- What is reckoned with a size in words comes to what is reckoned with its number. -/
structure ExactInWords (size : Int64) : Prop where
  /-- The size keeps its value as an unsigned word. -/
  converted : (size.toUInt64.toNat : Int) = size.toInt
  /-- The sum with a number of documents does not wrap. -/
  summed : ∀ count : UInt64, count.toNat ≤ sizeLimit →
    (size.toUInt64 + count).toNat = magnitude size + count.toNat
  /-- The comparison that tells whether a window is cut is that of the numbers. -/
  exceeded : ∀ count : UInt64, size.toUInt64 < count ↔ magnitude size < count.toNat
  /-- The comparison that tells whether documents follow is that of the numbers. -/
  compared : ∀ count total : UInt64,
    saturatingSum size.toUInt64 count < total ↔ magnitude size + count.toNat < total.toNat
  /-- The lookahead is that of the number. -/
  ahead : (lookaheadWord size.toUInt64).toNat = lookahead (magnitude size)

/-- The number of a size is a signed word. -/
theorem magnitude_le (size : Int64) : magnitude size ≤ sizeLimit := by
  have held := size.toInt_lt
  unfold magnitude sizeLimit
  omega

/-- A size that is not negative keeps its value as an unsigned word. -/
theorem toNat_toUInt64_eq_magnitude {size : Int64} (known : 0 ≤ size.toInt) :
    size.toUInt64.toNat = magnitude size :=
  Int64.toNat_toUInt64_of_le (Int64.le_iff_toInt_le.mpr known)

/-- Words are exact for a size that is not negative. -/
theorem exactInWords_of_nonnegative {size : Int64} (known : 0 ≤ size.toInt) :
    ExactInWords size := by
  have same := toNat_toUInt64_eq_magnitude known
  have within := magnitude_le size
  refine ⟨?_, ?_, ?_, ?_, ?_⟩
  · rw [same]
    exact Int.toNat_of_nonneg known
  · intro count short
    unfold sizeLimit at within short
    rw [UInt64.toNat_add, same]
    omega
  · intro count
    rw [UInt64.lt_iff_toNat_lt, same]
  · intro count total
    rw [saturatingSum_lt_iff, same]
  · rw [toNat_lookaheadWord, same]

namespace Pagination

/-- The size that a request names. -/
def size? : Option Pagination → Option Int64
  | none => none
  | some (.offset request) => some request.limit
  | some (.cursor request) => request.first.or request.last

/-- The number of documents that a request passes over. -/
def passed? : Option Pagination → Option Int64
  | some (.offset request) => some request.offset
  | _ => none

/-- A cursor request that is not refused looks one way, and the size that it names is the one of
that way. -/
theorem size?_of_allowed {request : CursorRequest}
    (allowed : refusal? (some (.cursor request)) = none) :
    size? (some (.cursor request)) = if request.looksBack then request.last else request.first := by
  obtain ⟨-, -, oneWay⟩ := (refusal?_eq_none_iff (some (.cursor request))).mp allowed
  by_cases back : request.looksBack = true
  · obtain ⟨unnamed, -⟩ : request.first = none ∧ request.after = none := by
      simpa [CursorRequest.looksForward, back] using oneWay
    simp [size?, unnamed, back]
  · obtain ⟨unnamed, -⟩ : request.last = none ∧ request.before = none := by
      simpa [CursorRequest.looksBack] using back
    simp [size?, unnamed, back]

/-- The numbers of a request that is not refused are not negative. -/
theorem nonnegative_of_allowed {request : Option Pagination} (allowed : refusal? request = none)
    {size : Int64} (named : size? request = some size ∨ passed? request = some size) :
    0 ≤ size.toInt := by
  have admissible := (refusal?_eq_none_iff request).mp allowed
  cases request with
  | none => simp [size?, passed?] at named
  | some request =>
      cases request with
      | offset request =>
          obtain ⟨passable, limited⟩ := admissible
          obtain same | same := named
          · cases same
            exact limited
          · cases same
            exact passable
      | cursor request =>
          obtain ⟨ahead, back, -⟩ := admissible
          obtain same | same := named
          · obtain same | ⟨-, same⟩ := Option.or_eq_some_iff.mp same
            · exact ahead size same
            · exact back size same
          · cases same

end Pagination

/-- What the options of a window's query are bounded by, for the request that they are made for. -/
structure BoundedScan (request : Option Pagination) (options : ScanOptions) : Prop where
  /-- A size that is named is asked for by a limit. -/
  limited : ∀ size, Pagination.size? request = some size →
    ∃ limit, options.limit = some limit ∧ 1 ≤ limit ∧ limit ≤ sizeLimit
  /-- Without a size there is no limit. -/
  unlimited : Pagination.size? request = none → options.limit = none
  /-- A window by cursors asks for one document more than its size, short of the greatest size. -/
  ahead : ∀ (arguments : CursorRequest) (size : Int64), request = some (.cursor arguments) →
    Pagination.size? request = some size → size < Int64.maxValue →
      options.limit = some (magnitude size + 1)
  /-- A window by position skips and asks for the numbers that it names. -/
  positioned : ∀ arguments : OffsetRequest, request = some (.offset arguments) →
    options.skip = some (magnitude arguments.offset) ∧
      options.limit = some (magnitude arguments.limit)
  /-- Only a window by position skips documents. -/
  skipped : ∀ skip, options.skip = some skip →
    (∃ arguments : OffsetRequest, request = some (.offset arguments)) ∧ skip ≤ sizeLimit
  /-- The scan goes by the identifier. -/
  sorted : ∃ direction, options.sort = some ⟨idField, direction⟩
  /-- The options are accepted as they are, by a server whose limits are signed words. -/
  accepted : ∃ prepared, Mongo.findOptions options = .ok prepared ∧
    prepared.limit = options.limit ∧ prepared.skip = options.skip ∧
      prepared.sort = options.sort.map Mongo.sortDocument ∧
        ∀ limit, prepared.limit = some limit → (UInt64.ofNat limit).toInt64.toInt = limit
  /-- Nothing that is reckoned with a size wraps. -/
  reckoned : ∀ size, Pagination.size? request = some size ∨ Pagination.passed? request = some size →
    ExactInWords size

/-- A server accepts options whose limit it can hold, and leaves them as they are. -/
theorem Mongo.findOptions_of_limit {options : ScanOptions}
    (within : ∀ limit, options.limit = some limit → limit ≤ sizeLimit) :
    ∃ prepared, Mongo.findOptions options = .ok prepared ∧
      prepared.limit = options.limit ∧ prepared.skip = options.skip ∧
        prepared.sort = options.sort.map Mongo.sortDocument := by
  cases limited : options.limit with
  | none => exact ⟨_, by simp only [Mongo.findOptions, limited]; rfl, rfl, rfl, rfl⟩
  | some limit =>
      have held : ¬ Mongo.greatestLimit < limit := Nat.not_lt.mpr (within limit limited)
      exact ⟨_, by simp only [Mongo.findOptions, limited, if_neg held]; rfl, rfl, rfl, rfl⟩

/-- A lookahead is at least one, and a signed word holds it. -/
theorem lookahead_bounded (size : Nat) : 1 ≤ lookahead size ∧ lookahead size ≤ sizeLimit := by
  unfold lookahead sizeLimit
  omega

/-- Short of the greatest size, a lookahead is one document more. -/
theorem lookahead_of_lt {size : Nat} (short : size < sizeLimit) : lookahead size = size + 1 := by
  unfold lookahead
  omega

namespace Pagination

/-- The limit that a request comes to. -/
def limit? : Option Pagination → Option Nat
  | none => none
  | some (.offset request) => some (magnitude request.limit)
  | some (.cursor request) =>
      (size? (some (.cursor request))).map fun size => lookahead (magnitude size)

/-- The options of a window's query are a sort by the identifier, the number that the request
passes over and the limit that it comes to. That limit is never zero. -/
theorem options_of_allowed {filter : Filter} {request : Option Pagination} {query : WindowQuery}
    (allowed : refusal? request = none) (asked : query? filter request = some query) :
    (∃ direction, query.options =
      { sort := some ⟨idField, direction⟩, skip := (passed? request).map magnitude,
        limit := limit? request }) ∧
      limit? request ≠ some 0 := by
  cases request with
  | none =>
      cases asked
      exact ⟨⟨.ascending, rfl⟩, by simp [limit?]⟩
  | some request =>
      cases request with
      | offset request =>
          by_cases zero : magnitude request.limit = 0
          · rw [query?, if_pos zero] at asked
            cases asked
          · rw [query?, if_neg zero] at asked
            cases asked
            exact ⟨⟨.ascending, rfl⟩, fun none => zero (Option.some.inj none)⟩
      | cursor request =>
          have positive : limit? (some (.cursor request)) ≠ some 0 := by
            intro none
            obtain ⟨size, _, zero⟩ := Option.map_eq_some_iff.mp none
            have bounded := lookahead_bounded (magnitude size)
            omega
          refine ⟨?_, positive⟩
          have named := size?_of_allowed allowed
          by_cases back : request.looksBack = true
          · rw [query?, if_pos back] at asked
            rw [if_pos back] at named
            cases asked
            refine ⟨.descending, ?_⟩
            simp only [backwardQuery, ScanOptions.byIdDescending, limit?, named, Option.map_map]
            rfl
          · rw [query?, if_neg back] at asked
            rw [if_neg back] at named
            cases asked
            refine ⟨.ascending, ?_⟩
            simp only [forwardQuery, ScanOptions.byId, limit?, named, Option.map_map]
            rfl

/-- The limit of a request is within the signed words. -/
theorem limit?_le {request : Option Pagination} {limit : Nat}
    (comes : limit? request = some limit) : limit ≤ sizeLimit := by
  cases request with
  | none => cases comes
  | some request =>
      cases request with
      | offset request =>
          cases comes
          exact magnitude_le request.limit
      | cursor request =>
          obtain ⟨size, _, rfl⟩ := Option.map_eq_some_iff.mp comes
          exact (lookahead_bounded (magnitude size)).2

/-- A request comes to a limit exactly when it names a size. -/
theorem limit?_eq_none_iff (request : Option Pagination) :
    limit? request = none ↔ size? request = none := by
  cases request with
  | none => simp [limit?, size?]
  | some request => cases request <;> simp [limit?, size?]

end Pagination

/-- The query of a window is bounded, whether or not disk use is settled. -/
theorem boundedScan_of_allowed {filter : Filter} {request : Option Pagination}
    {query : WindowQuery} (allowed : Pagination.refusal? request = none)
    (asked : Pagination.query? filter request = some query) :
    BoundedScan request query.options.diskUseAllowed := by
  obtain ⟨⟨direction, same⟩, positive⟩ := Pagination.options_of_allowed allowed asked
  have limit : query.options.diskUseAllowed.limit = Pagination.limit? request := by rw [same]; rfl
  have skip : query.options.diskUseAllowed.skip =
      (Pagination.passed? request).map magnitude := by rw [same]; rfl
  have sort : query.options.diskUseAllowed.sort = some ⟨idField, direction⟩ := by rw [same]; rfl
  have within (bound : Nat) (given : query.options.diskUseAllowed.limit = some bound) :
      bound ≤ sizeLimit := Pagination.limit?_le (limit.symm.trans given)
  refine
    { limited := ?_
      unlimited := fun unnamed =>
        limit.trans ((Pagination.limit?_eq_none_iff request).mpr unnamed)
      ahead := ?_
      positioned := ?_
      skipped := ?_
      sorted := ⟨direction, sort⟩
      accepted := ?_
      reckoned := fun size named =>
        exactInWords_of_nonnegative (Pagination.nonnegative_of_allowed allowed named) }
  · intro size named
    cases comes : Pagination.limit? request with
    | none =>
        rw [(Pagination.limit?_eq_none_iff request).mp comes] at named
        cases named
    | some bound =>
        have given := limit.trans comes
        refine ⟨bound, given, Nat.pos_of_ne_zero ?_, within bound given⟩
        rintro rfl
        exact positive comes
  · rintro arguments size rfl named short
    have below : magnitude size < sizeLimit := by
      have signed := Int64.lt_iff_toInt_lt.mp short
      have greatest : Int64.maxValue.toInt = 9223372036854775807 := by rfl
      unfold magnitude sizeLimit
      omega
    rw [limit, Pagination.limit?, named, Option.map_some, lookahead_of_lt below]
  · rintro arguments rfl
    exact ⟨skip, limit⟩
  · intro number given
    obtain ⟨size, passed, rfl⟩ := Option.map_eq_some_iff.mp (skip.symm.trans given)
    cases request with
    | none => cases passed
    | some request =>
        cases request with
        | cursor request => cases passed
        | offset request =>
            cases passed
            exact ⟨⟨request, rfl⟩, magnitude_le request.offset⟩
  · obtain ⟨prepared, ready, limits, skips, sorts⟩ := Mongo.findOptions_of_limit within
    exact ⟨prepared, ready, limits, skips, sorts,
      fun bound given => toInt_limit (within bound (limits.symm.trans given))⟩

namespace Collection

variable {σ κ : Type}

/-- The queries that a window opens. -/
def windowCalls (collection : Collection σ) (filter : Filter) (request : Option Pagination) :
    List Call :=
  match Pagination.refusal? request with
  | some _ => []
  | none => (Pagination.query? filter request).toList.map collection.opening

/-- Every query that a window opens is bounded. -/
theorem boundedScan_of_mem_windowCalls {collection : Collection σ} {filter scanned : Filter}
    {request : Option Pagination} {name : String} {options : ScanOptions}
    (opened : .find name scanned options ∈ collection.windowCalls filter request) :
    BoundedScan request options := by
  cases allowed : Pagination.refusal? request with
  | some refusal => simp [windowCalls, allowed] at opened
  | none =>
      rw [windowCalls, allowed] at opened
      obtain ⟨query, asked, same⟩ := List.mem_map.mp opened
      cases same
      exact boundedScan_of_allowed allowed (Option.mem_toList.mp asked)

/-- A recorded window is had as the window is, with the calls of its query. -/
theorem window_recorded {collection : Collection σ} {filter : Filter}
    {request : Option Pagination} {total : Nat} {state next : σ}
    {answer : Except StoreError Window}
    (had : collection.window filter request total state = (answer, next)) (calls : List Call) :
    collection.logged.window filter request total (state, calls) =
      (answer, (next, calls ++ collection.windowCalls filter request)) := by
  rw [window_eq] at had ⊢
  cases allowed : Pagination.refusal? request with
  | some refusal =>
      simp only [allowed] at had
      cases had
      simp [windowCalls, allowed]
  | none =>
      simp only [allowed] at had ⊢
      cases asked : Pagination.query? filter request with
      | none =>
          simp only [asked] at had
          cases had
          simp [windowCalls, allowed, asked]
      | some query =>
          have opened : collection.windowCalls filter request = [collection.opening query] := by
            simp [windowCalls, allowed, asked]
          simp only [asked, fetchWindow] at had ⊢
          cases fetched : collection.fetch query state with
          | mk documents after =>
              rw [fetched] at had
              rw [fetch_recorded fetched, opened]
              cases documents <;> (cases had; rfl)

/-- The calls that paging makes: the count, and the query of the window if the count goes well. -/
def pageCalls (collection : Collection σ) (filter : Filter) (request : Option Pagination)
    (state : σ) : List Call :=
  .count collection.name filter ::
    match (collection.count filter state).1 with
    | .error _ => []
    | .ok _ => collection.windowCalls filter request

/-- A recorded paging goes as the paging does, with the calls of its page. -/
theorem paginate_recorded {collection : Collection σ} {filter : Filter}
    {request : Option Pagination} {consumer : Consumer κ} {state next : σ} {sink filled : κ}
    {result : Except StoreError PageInfo}
    (paged : collection.paginate filter request consumer (state, sink) = (result, (next, filled))) :
    collection.logged.paginate filter request consumer ((state, []), sink) =
      (result, ((next, collection.pageCalls filter request state), filled)) := by
  cases counted : collection.count filter state with
  | mk answer after =>
      have recorded : collection.logged.count filter (state, []) =
          (answer, (after, [.count collection.name filter])) := Action.recorded_eq counted []
      simp only [pageCalls, counted]
      simp only [paginate, counted] at paged
      simp only [paginate, recorded]
      cases answer with
      | error error =>
          cases paged
          rfl
      | ok total =>
          cases had : collection.window filter request total after with
          | mk window fetched =>
              simp only [had] at paged
              simp only [window_recorded had]
              cases window with
              | error error =>
                  cases paged
                  rfl
              | ok window =>
                  simp only at paged ⊢
                  cases marked : boundaryCursors window.documents with
                  | error error =>
                      simp only [marked] at paged ⊢
                      cases paged
                      rfl
                  | ok ends =>
                      obtain ⟨start, stop⟩ := ends
                      simp only [marked] at paged ⊢
                      cases delivered : consumer.deliver window.documents sink with
                      | mk flow flowed =>
                          simp only [delivered] at paged ⊢
                          cases flow <;> (cases paged; rfl)

/-- Paging makes the calls of its page and no others, and each query among them is bounded. This
holds for every request, filter and backend in any state, whatever the consumer does. -/
theorem windows_stay_bounded (collection : Collection σ) (filter : Filter)
    (request : Option Pagination) (consumer : Consumer κ) (state : σ) (sink : κ) :
    ∃ (result : Except StoreError PageInfo) (next : σ) (filled : κ),
      collection.paginate filter request consumer (state, sink) = (result, (next, filled)) ∧
      collection.logged.paginate filter request consumer ((state, []), sink) =
        (result, ((next, collection.pageCalls filter request state), filled)) ∧
      ∀ name scanned options,
        .find name scanned options ∈ collection.pageCalls filter request state →
          BoundedScan request options := by
  refine ⟨_, _, _, rfl, paginate_recorded rfl, ?_⟩
  intro name scanned options opened
  obtain same | opened := List.mem_cons.mp opened
  · cases same
  · cases counted : (collection.count filter state).1 with
    | error error => simp [counted] at opened
    | ok total =>
        rw [counted] at opened
        exact boundedScan_of_mem_windowCalls opened

/-- The greatest size is asked for without one document more, which no signed word could count. -/
example :
    pageCalls ⟨"items", Script.backend⟩ Filter.everything
        (some (.cursor (.forward Int64.maxValue none))) ⟨[.number 0], []⟩ =
      [.count "items" Filter.everything,
        .find "items" Filter.everything
          { sort := some ⟨idField, .ascending⟩, limit := some 9223372036854775807,
            allowDiskUse := some true }] := by
  rfl

end Collection

end DocStore
