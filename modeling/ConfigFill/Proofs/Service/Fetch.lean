import ConfigFill.Proofs.Trace.Effect
import ConfigFill.Service.Store

/-!
# Fetching parameters from a service

What a query of a service does and how it ends: one equation for each reply to the request for a
page (`fetch_pages_more` and those before it), and from these how a whole run over listed pages goes
(`fetch_pages_complete`, `fetch_pages_broken`). A query of a service that answers from tables asks
for everything or fails, and never hands out a part: `Tables.Fetches` says by rules which requests
it makes and how it ends, with `Tables.Gives` for which entries of the pages count, and the main
statement `query_complete_or_fails` that it does just this.
-/

namespace ConfigFill.Service

variable {service : Service} {path : String} {token : Option String} {fuel : Nat}
  {earlier : List String}

/-- After a request, an operation goes on as if nothing had been before it. -/
theorem note_request_bind_apply {α : Type} (request : Request) (next : Unit → Run α)
    (earlier : List String) :
    (noteRequest request >>= next) earlier =
      (.request request :: (next () earlier).1, (next () earlier).2) := by
  have hnote : noteRequest request earlier = ([.request request], .ok ()) := rfl
  rw [Effect.bind_apply_ok hnote]
  simp [Trace.queries]

/-- A page that cannot be asked for fails the whole, and is no request. -/
theorem fetch_pages_unreachable (h : service.page path token = .unreachable) :
    fetchPages service path (fuel + 1) token earlier =
      ([], .error (requestFailure "GetParametersByPath" path)) := by
  simp only [fetchPages, h]
  rfl

/-- A fault in place of a page fails the whole. -/
theorem fetch_pages_fault (h : service.page path token = .fault) :
    fetchPages service path (fuel + 1) token earlier =
      ([.request (.page path true true token)],
        .error (requestFailure "GetParametersByPath" path)) := by
  simp only [fetchPages, h]
  rw [note_request_bind_apply]
  rfl

/-- The last page ends the pages, and its complete parameters are handed out. -/
theorem fetch_pages_last {entries : List Entry} {next : Option String}
    (h : service.page path token = .page entries next) (ends : next = none ∨ next = some "") :
    fetchPages service path (fuel + 1) token earlier =
      ([.request (.page path true true token)], .ok (entries.filterMap Entry.complete?)) := by
  simp only [fetchPages, h]
  rw [note_request_bind_apply]
  rcases ends with rfl | rfl
  · simp [Effect.pure_apply]
  · simp [Effect.pure_apply]

/-- A page with a token for the next is followed by what comes of the others. -/
theorem fetch_pages_more {entries : List Entry} {next : String}
    (h : service.page path token = .page entries (some next)) (goesOn : next ≠ "") :
    fetchPages service path (fuel + 1) token earlier =
      (.request (.page path true true token) ::
          (fetchPages service path fuel (some next) earlier).1,
        (fetchPages service path fuel (some next) earlier).2.map
          (entries.filterMap Entry.complete? ++ ·)) := by
  have hnext : next.isEmpty = false := by simpa [String.isEmpty_iff] using goesOn
  simp only [fetchPages, h]
  rw [note_request_bind_apply]
  simp only [hnext, Bool.false_eq_true, if_false]
  rw [bind_pure_comp, Effect.map_apply]

/-- Where the pages end, asking for them ends too: a larger bound on their number changes
nothing. -/
theorem fetch_pages_of_le {bound : Nat} (h : PagesEnd (service.page path) bound token)
    (hfuel : bound ≤ fuel) (earlier : List String) :
    fetchPages service path fuel token earlier = fetchPages service path bound token earlier := by
  induction bound generalizing fuel token with
  | zero => exact h.elim
  | succ bound ih =>
      obtain ⟨fuel, rfl⟩ := Nat.exists_eq_add_of_le' hfuel
      rw [← Nat.add_assoc]
      cases hpage : service.page path token with
      | unreachable => rw [fetch_pages_unreachable hpage, fetch_pages_unreachable hpage]
      | fault => rw [fetch_pages_fault hpage, fetch_pages_fault hpage]
      | page entries next =>
          cases next with
          | none =>
              rw [fetch_pages_last hpage (.inl rfl), fetch_pages_last hpage (.inl rfl)]
          | some next =>
              by_cases hnext : next = ""
              · subst hnext
                rw [fetch_pages_last hpage (.inr rfl), fetch_pages_last hpage (.inr rfl)]
              · simp only [PagesEnd, hpage] at h
                rw [fetch_pages_more hpage hnext, fetch_pages_more hpage hnext,
                  ih (h.resolve_left hnext) (Nat.le_add_left bound fuel)]

namespace Tables

variable (tables : Tables)

/-- The request for a page of a path. -/
def pageRequest (path : String) (index : Nat) : Request :=
  .page path true true (tokenOf index)

/-- What comes of asking for the parameter that is named as the path is: the requests made, and the
parameter, if there is one with a value. The root is not asked for. -/
inductive FetchesExact (path : String) :
    List Request → Except Failure (Option Parameter) → Prop where
  | root (h : path = "/") : FetchesExact path [] (.ok none)
  | found {name : Option String} {value : String} (h : path ≠ "/")
      (hreply : tables.service.parameter path = .found ⟨name, some value⟩) :
      FetchesExact path [.parameter path true] (.ok (some ⟨name.getD path, value⟩))
  | valueless {name : Option String} (h : path ≠ "/")
      (hreply : tables.service.parameter path = .found ⟨name, none⟩) :
      FetchesExact path [.parameter path true] (.ok none)
  | absent (h : path ≠ "/")
      (hreply : tables.service.parameter path = .nothing ∨
        tables.service.parameter path = .unknown) :
      FetchesExact path [.parameter path true] (.ok none)
  | fault (h : path ≠ "/") (hreply : tables.service.parameter path = .fault) :
      FetchesExact path [.parameter path true] (.error (requestFailure "GetParameter" path))
  | unreachable (h : path ≠ "/") (hreply : tables.service.parameter path = .unreachable) :
      FetchesExact path [] (.error (requestFailure "GetParameter" path))

/-- The parameters are those that the entries give, in their order: one for each entry that has both
a name and a value, with these, and none for the others. -/
inductive Gives : List Entry → List Parameter → Prop where
  | nil : Gives [] []
  | kept {entry : Entry} {parameter : Parameter} {entries : List Entry}
      {parameters : List Parameter} (hname : entry.name = some parameter.name)
      (hvalue : entry.value = some parameter.value) (hrest : Gives entries parameters) :
      Gives (entry :: entries) (parameter :: parameters)
  | dropped {entry : Entry} {entries : List Entry} {parameters : List Parameter}
      (h : entry.name = none ∨ entry.value = none) (hrest : Gives entries parameters) :
      Gives (entry :: entries) parameters

/-- What comes of asking for the pages of a path: the requests made, in order, and the complete
parameters of all pages, or a failure if one of them is a fault. At least one page is asked for. -/
inductive FetchesPages (path : String) : List Request → Except Failure (List Parameter) → Prop where
  | complete {pages : List (List Entry)} {parameters : List Parameter}
      (h : tables.pagesOf path = pages.map .entries) (hgives : Gives pages.flatten parameters) :
      FetchesPages path ((List.range (max 1 pages.length)).map (pageRequest path)) (.ok parameters)
  | broken {pages : List (List Entry)} {after : List Page}
      (h : tables.pagesOf path = pages.map .entries ++ .fault :: after) :
      FetchesPages path ((List.range (pages.length + 1)).map (pageRequest path))
        (.error (requestFailure "GetParametersByPath" path))

/-- What comes of a query: the parameter named as the path is, and then those of the pages. The
pages are not asked for after a failure to get the former. -/
inductive Fetches (path : String) : List Request → Except Failure (List Parameter) → Prop where
  | refused {requests : List Request} {failure : Failure}
      (hexact : tables.FetchesExact path requests (.error failure)) :
      Fetches path requests (.error failure)
  | broken {requests later : List Request} {exact : Option Parameter} {failure : Failure}
      (hexact : tables.FetchesExact path requests (.ok exact))
      (hpages : tables.FetchesPages path later (.error failure)) :
      Fetches path (requests ++ later) (.error failure)
  | complete {requests later : List Request} {exact : Option Parameter} {below : List Parameter}
      (hexact : tables.FetchesExact path requests (.ok exact))
      (hpages : tables.FetchesPages path later (.ok below)) :
      Fetches path (requests ++ later) (.ok (exact.toList ++ below))

variable {tables}

/-- What entries give is what is kept of them. -/
theorem gives_iff {entries : List Entry} {parameters : List Parameter} :
    Gives entries parameters ↔ entries.filterMap Entry.complete? = parameters := by
  constructor
  · intro h
    induction h with
    | nil => rfl
    | kept hname hvalue _ ih =>
        rw [List.filterMap_cons_some (Entry.complete_eq_some_iff.2 ⟨hname, hvalue⟩), ih]
    | dropped h _ ih => rw [List.filterMap_cons_none (Entry.complete_eq_none_iff.2 h), ih]
  · rintro rfl
    induction entries with
    | nil => exact .nil
    | cons entry rest ih =>
        cases hentry : entry.complete? with
        | none =>
            rw [List.filterMap_cons_none hentry]
            exact .dropped (Entry.complete_eq_none_iff.1 hentry) ih
        | some parameter =>
            obtain ⟨hname, hvalue⟩ := Entry.complete_eq_some_iff.1 hentry
            rw [List.filterMap_cons_some hentry]
            exact .kept hname hvalue ih

/-- The first fault among pages, if there is one, comes after pages with entries. -/
theorem exists_served (pages : List Page) :
    ∃ served : List (List Entry), pages = served.map .entries ∨
      ∃ after, pages = served.map .entries ++ .fault :: after := by
  induction pages with
  | nil => exact ⟨[], .inl rfl⟩
  | cons page rest ih =>
      cases page with
      | fault => exact ⟨[], .inr ⟨rest, rfl⟩⟩
      | entries entries =>
          obtain ⟨served, rfl | ⟨after, rfl⟩⟩ := ih
          · exact ⟨entries :: served, .inl rfl⟩
          · exact ⟨entries :: served, .inr ⟨after, rfl⟩⟩

/-- The reply to the request for a page that is listed after others. -/
theorem page_service_of_append {before rest : List Page} {entries : List Entry}
    (h : tables.pagesOf path = before ++ .entries entries :: rest) :
    tables.service.page path (tokenOf before.length) =
      .page entries
        (if rest = [] then if tables.emptyLastToken then some "" else none
        else tokenOf (before.length + 1)) := by
  show tables.pageReply path (tokenOf before.length) = _
  rw [page_reply_token_of]
  by_cases hrest : rest = [] <;> simp [h, tokenAfter, hrest, List.length_pos_iff]

/-- The request for a page that is listed as a fault after others meets the fault. -/
theorem fault_service_of_append {before rest : List Page}
    (h : tables.pagesOf path = before ++ .fault :: rest) :
    tables.service.page path (tokenOf before.length) = .fault := by
  show tables.pageReply path (tokenOf before.length) = _
  rw [page_reply_token_of]
  simp [h]

/-- The tokens of later pages are not empty. -/
theorem token_of_succ (index : Nat) : ∃ token, tokenOf (index + 1) = some token ∧ token ≠ "" := by
  refine ⟨s!"t{index + 1}", rfl, fun h ↦ ?_⟩
  have hlist := congrArg String.toList h
  simp at hlist

/-- The requests for pages from an index on, as they show in a trace. -/
def pageEvents (path : String) (index count : Nat) : Trace :=
  (List.range' index count).map (.request ∘ pageRequest path)

/-- From a page on, with no fault to come, every page is asked for once and none is lost. -/
theorem fetch_pages_complete {before : List Page} {pages : List (List Entry)} (hne : pages ≠ [])
    (h : tables.pagesOf path = before ++ pages.map .entries) (hfuel : pages.length ≤ fuel)
    (earlier : List String) :
    fetchPages tables.service path fuel (tokenOf before.length) earlier =
      (pageEvents path before.length pages.length,
        .ok (pages.flatten.filterMap Entry.complete?)) := by
  -- Each page moves from those to come to those before; there is fuel for all that are left.
  induction pages generalizing before fuel with
  | nil => exact absurd rfl hne
  | cons entries rest ih =>
      obtain ⟨fuel, rfl⟩ := Nat.exists_eq_add_of_le' hfuel
      rw [List.length_cons, ← Nat.add_assoc]
      have hpage := page_service_of_append h
      cases rest with
      | nil =>
          rw [fetch_pages_last hpage]
          · simp [pageEvents, pageRequest, List.range']
          · cases tables.emptyLastToken <;> simp
      | cons next rest =>
          obtain ⟨token, htoken, hgoesOn⟩ := token_of_succ before.length
          rw [List.map_cons, if_neg (List.cons_ne_nil _ _), htoken] at hpage
          have happended : tables.pagesOf path =
              before ++ [.entries entries] ++ (next :: rest).map .entries := by simp [h]
          have hrest := ih (List.cons_ne_nil _ _) happended
            (Nat.le_add_left (next :: rest).length fuel)
          rw [List.length_append, List.length_singleton, htoken] at hrest
          rw [fetch_pages_more hpage hgoesOn, hrest]
          simp [pageEvents, pageRequest, List.range', Except.map]

/-- From a page on, the first fault to come ends the run, and what came before it is lost. -/
theorem fetch_pages_broken {before after : List Page} {pages : List (List Entry)}
    (h : tables.pagesOf path = before ++ (pages.map .entries ++ .fault :: after))
    (hfuel : pages.length < fuel) (earlier : List String) :
    fetchPages tables.service path fuel (tokenOf before.length) earlier =
      (pageEvents path before.length (pages.length + 1),
        .error (requestFailure "GetParametersByPath" path)) := by
  induction pages generalizing before fuel with
  | nil =>
      obtain ⟨fuel, rfl⟩ := Nat.exists_eq_add_of_lt hfuel
      rw [fetch_pages_fault (fault_service_of_append h)]
      simp [pageEvents, pageRequest, List.range']
  | cons entries rest ih =>
      obtain ⟨fuel, rfl⟩ := Nat.exists_eq_add_of_lt hfuel
      obtain ⟨token, htoken, hgoesOn⟩ := token_of_succ before.length
      have hpage := page_service_of_append h
      rw [if_neg (by simp), htoken] at hpage
      have happended : tables.pagesOf path =
          before ++ [.entries entries] ++ (rest.map .entries ++ .fault :: after) := by simp [h]
      have hmore : rest.length < rest.length + 1 + fuel := by omega
      have hrest := ih happended hmore
      rw [List.length_append, List.length_singleton, htoken] at hrest
      rw [List.length_cons, fetch_pages_more hpage hgoesOn, hrest]
      simp [pageEvents, pageRequest, List.range', Except.map]

/-- The pages of a path are asked for as the rules say. -/
theorem FetchesPages.fetch_pages {requests : List Request}
    {result : Except Failure (List Parameter)} (h : tables.FetchesPages path requests result)
    (earlier : List String) :
    fetchPages tables.service path (tables.service.pageBound path) none earlier =
      (requests.map .request, result) := by
  have hbound : tables.service.pageBound path = (tables.pagesOf path).length + 1 := rfl
  cases h with
  | @complete pages parameters h hgives =>
      obtain rfl := gives_iff.1 hgives
      by_cases hne : pages = []
      · -- Where no page is listed, there is still an empty one.
        subst hne
        have hempty : tables.service.page path none = .page [] none := by
          show tables.pageReply path (tokenOf 0) = _
          rw [page_reply_token_of]
          simp [h]
        rw [hbound, fetch_pages_last hempty (.inl rfl)]
        simp [pageRequest, tokenOf, List.range_succ]
      · have hfuel : pages.length ≤ tables.service.pageBound path := by simp [hbound, h]
        have hmax : max 1 pages.length = pages.length :=
          Nat.max_eq_right (List.length_pos_iff.2 hne)
        have hall : tables.pagesOf path = [] ++ pages.map .entries := h
        rw [hmax, List.range_eq_range', List.map_map]
        exact fetch_pages_complete hne hall hfuel earlier
  | @broken pages after h =>
      have hfuel : pages.length < tables.service.pageBound path := by
        simp only [hbound, h, List.length_append, List.length_map, List.length_cons]
        omega
      have hall : tables.pagesOf path = [] ++ (pages.map .entries ++ .fault :: after) := h
      rw [List.range_eq_range', List.map_map]
      exact fetch_pages_broken hall hfuel earlier

/-- The rules say what comes of the pages of any path. -/
theorem exists_fetches_pages (tables : Tables) (path : String) :
    ∃ requests result, tables.FetchesPages path requests result := by
  obtain ⟨pages, h | ⟨after, h⟩⟩ := exists_served (tables.pagesOf path)
  · exact ⟨_, _, .complete h (gives_iff.2 rfl)⟩
  · exact ⟨_, _, .broken h⟩

/-- The parameter of exactly the path, for which the root is not asked. -/
def exactOf (service : Service) (path : String) : Run (Option Parameter) :=
  if path = "/" then pure none else fetchExact service path

/-- The parameter named as the path is asked for as the rules say. -/
theorem FetchesExact.exact_of {requests : List Request} {result : Except Failure (Option Parameter)}
    (h : tables.FetchesExact path requests result) (earlier : List String) :
    exactOf tables.service path earlier = (requests.map .request, result) := by
  cases h with
  | root h =>
      rw [exactOf, if_pos h]
      rfl
  | found h hreply | valueless h hreply | fault h hreply =>
      rw [exactOf, if_neg h]
      simp only [fetchExact, hreply]
      rw [note_request_bind_apply]
      rfl
  | absent h hreply =>
      rw [exactOf, if_neg h]
      rcases hreply with hreply | hreply
      all_goals
        simp only [fetchExact, hreply]
        rw [note_request_bind_apply]
        rfl
  | unreachable h hreply =>
      rw [exactOf, if_neg h]
      simp only [fetchExact, hreply]
      rfl

/-- The rules say what comes of asking for the parameter named as any path. -/
theorem exists_fetches_exact (tables : Tables) (path : String) :
    ∃ requests result, tables.FetchesExact path requests result := by
  by_cases hroot : path = "/"
  · exact ⟨_, _, .root hroot⟩
  · cases hreply : tables.service.parameter path with
    | found entry =>
        obtain ⟨name, value | value⟩ := entry
        · exact ⟨_, _, .valueless hroot hreply⟩
        · exact ⟨_, _, .found hroot hreply⟩
    | nothing => exact ⟨_, _, .absent hroot (.inl hreply)⟩
    | unknown => exact ⟨_, _, .absent hroot (.inr hreply)⟩
    | fault => exact ⟨_, _, .fault hroot hreply⟩
    | unreachable => exact ⟨_, _, .unreachable hroot hreply⟩

/-- A query makes the requests that the rules say and ends as they say. -/
theorem Fetches.query {requests : List Request} {result : Except Failure (List Parameter)}
    (h : tables.Fetches path requests result) (earlier : List String) :
    (tables.service.store.query path earlier).1.requests = requests ∧
      (tables.service.store.query path earlier).2 = result := by
  have hquery : tables.service.store.query path earlier =
      (.query path :: (fetch tables.service path earlier).1,
        (fetch tables.service path earlier).2) := rfl
  have hfetch : fetch tables.service path = exactOf tables.service path >>= fun exact ↦ do
      let below ← fetchPages tables.service path (tables.service.pageBound path) none
      .log (.serviceAnswered (exact.toList ++ below).length path)
      return exact.toList ++ below := by
    unfold fetch exactOf
    split <;> rfl
  rw [hquery, hfetch]
  cases h with
  | refused hexact =>
      rw [Effect.bind_apply_error (hexact.exact_of earlier)]
      simp [Trace.requests]
  | broken hexact hpages =>
      rw [Effect.bind_apply_ok (hexact.exact_of earlier),
        Effect.bind_apply_error (hpages.fetch_pages _)]
      simp [Trace.requests]
  | complete hexact hpages =>
      rw [Effect.bind_apply_ok (hexact.exact_of earlier),
        Effect.bind_apply_ok (hpages.fetch_pages _), Effect.log_bind_apply]
      simp [Trace.requests, Effect.pure_apply]

/-- The rules say what comes of a query for any path. -/
theorem exists_fetches (tables : Tables) (path : String) :
    ∃ requests result, tables.Fetches path requests result := by
  obtain ⟨requests, failure | exact, hexact⟩ := exists_fetches_exact tables path
  · exact ⟨_, _, .refused hexact⟩
  · obtain ⟨later, failure | below, hpages⟩ := exists_fetches_pages tables path
    · exact ⟨_, _, .broken hexact hpages⟩
    · exact ⟨_, _, .complete hexact hpages⟩

/-- A query of a service that answers from tables makes the requests that it should in their order
and ends as it should, and in no other way: with all complete parameters of the tables, or with the
failure of the first request that is not answered, after which it makes no more. The loop over the
pages ends by itself and is not cut short by the bound on their number. -/
theorem query_complete_or_fails (tables : Tables) (path : String) (earlier : List String) :
    (∀ requests result, tables.Fetches path requests result ↔
        requests = (tables.service.store.query path earlier).1.requests ∧
          result = (tables.service.store.query path earlier).2) ∧
      ∀ more, fetchPages tables.service path (tables.service.pageBound path + more) none earlier =
        fetchPages tables.service path (tables.service.pageBound path) none earlier := by
  refine ⟨fun requests result ↦ ⟨fun h ↦ ?_, ?_⟩, fun more ↦ ?_⟩
  · obtain ⟨hrequests, hresult⟩ := h.query earlier
    exact ⟨hrequests.symm, hresult.symm⟩
  · rintro ⟨rfl, rfl⟩
    obtain ⟨requests, result, h⟩ := exists_fetches tables path
    obtain ⟨hrequests, hresult⟩ := h.query earlier
    rw [hrequests, hresult]
    exact h
  · exact fetch_pages_of_le (tables.service.pagesEnd path) (Nat.le_add_right _ more) earlier

/-- Two pages, the second of them empty and with an empty token, and an entry without a name. -/
example :
    let pages := [.entries [⟨some "/a/b", some "1"⟩, ⟨none, some "2"⟩], .entries []]
    let run := ((Tables.mk [] [("/a", pages)] true).service.store.query "/a").start
    run.1.requests = [.parameter "/a" true, .page "/a" true true none,
        .page "/a" true true (some "t1")] ∧
      run.2 = .ok [⟨"/a/b", "1"⟩] := by
  exact ⟨rfl, rfl⟩

end Tables

end ConfigFill.Service
