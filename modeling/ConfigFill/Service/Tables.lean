import ConfigFill.Parameter.Store

/-!
# A parameter service

The service answers two kinds of request: for one parameter by name, and for the parameters below a
path, a page at a time. A page that is not the last comes with a token for the next. `Tables` is a
service that answers from fixed replies.
-/

namespace ConfigFill.Service

/-- A parameter as the service hands it out; name and value may be missing. -/
structure Entry where
  name : Option String
  value : Option String
  deriving DecidableEq, Repr, Inhabited

/-- The reply to a request for one parameter. -/
inductive ParameterReply where
  | found (entry : Entry)
  /-- A reply without a parameter in it. -/
  | nothing
  /-- The service knows no parameter of that name. -/
  | unknown
  | fault
  /-- The request did not reach the service. -/
  | unreachable
  deriving DecidableEq, Repr

/-- The reply to a request for a page. -/
inductive PageReply where
  | page (entries : List Entry) (next : Option String)
  | fault
  | unreachable
  deriving DecidableEq, Repr

/-- There are at most so many pages from the page of a token on: the last comes without a token for
the next or with an empty one, or there is a fault. -/
def PagesEnd (page : (token : Option String) → PageReply) : Nat → Option String → Prop
  | 0, _ => False
  | bound + 1, token =>
      match page token with
      | .page _ (some next) => next = "" ∨ PagesEnd page bound (some next)
      | _ => True

end Service

/-- A parameter service. For no path does it have pages without end. -/
structure Service where
  parameter : (name : String) → Service.ParameterReply
  page : (path : String) → (token : Option String) → Service.PageReply
  /-- A bound on the number of pages of a path. -/
  pageBound : (path : String) → Nat
  pagesEnd : ∀ path, Service.PagesEnd (page path) (pageBound path) none

namespace Service

/-- A service that no request reaches. -/
def offline : Service where
  parameter _ := .unreachable
  page _ _ := .unreachable
  pageBound _ := 1
  pagesEnd _ := trivial

/-- One page of a table. -/
inductive Page where
  | entries (entries : List Entry)
  | fault
  deriving DecidableEq, Repr

/-- Fixed replies: by name, and by path the list of its pages. -/
structure Tables where
  parameters : List (String × ParameterReply)
  pages : List (String × List Page)
  /-- The last page comes with an empty token instead of none. -/
  emptyLastToken : Bool

namespace Tables

/-- The pages of a path; a path that is not listed has one empty page. -/
def pagesOf (tables : Tables) (path : String) : List Page :=
  (tables.pages.lookup path).getD [.entries []]

/-- The token with which a page is asked for; the first needs none. -/
def tokenOf (index : Nat) : Option String :=
  if index = 0 then none else some s!"t{index}"

/-- The token that comes with a page. -/
def tokenAfter (tables : Tables) (path : String) (index : Nat) : Option String :=
  if index + 1 < (tables.pagesOf path).length then tokenOf (index + 1)
  else if tables.emptyLastToken then some ""
  else none

/-- The reply to a request for the page of a token. -/
def pageReply (tables : Tables) (path : String) (token : Option String) : PageReply :=
  let pages := tables.pagesOf path
  match (List.range pages.length).find? (tokenOf · == token) with
  | some index =>
      match pages[index]? with
      | some (.entries entries) => .page entries (tables.tokenAfter path index)
      | some .fault => .fault
      | none => .fault
  | none => .page [] none

/-- No two pages of a path have the same token. -/
theorem token_of_injective {index other : Nat} (h : tokenOf index = tokenOf other) :
    index = other := by
  have htoken (index : Nat) : tokenOf index =
      if index = 0 then none else some ("t" ++ String.ofList (Nat.toDigits 10 index)) := rfl
  rw [htoken, htoken] at h
  split at h <;> split at h
  · omega
  · cases h
  · cases h
  · have hdigits : Nat.toDigits 10 index = Nat.toDigits 10 other := by
      simpa [String.ext_iff] using h
    calc
      index = Nat.ofDigitChars 10 (Nat.toDigits 10 index) 0 := Nat.ofDigitChars_ten_toDigits.symm
      _ = Nat.ofDigitChars 10 (Nat.toDigits 10 other) 0 := by rw [hdigits]
      _ = other := Nat.ofDigitChars_ten_toDigits

/-- A token asks for the page that it was made for; beyond the last one there is an empty page. -/
theorem page_reply_token_of (tables : Tables) (path : String) (index : Nat) :
    tables.pageReply path (tokenOf index) =
      match (tables.pagesOf path)[index]? with
      | some (.entries entries) => .page entries (tables.tokenAfter path index)
      | some .fault => .fault
      | none => .page [] none := by
  have htoken (other : Nat) : (tokenOf other == tokenOf index) = decide (other = index) := by
    rw [Bool.eq_iff_iff, beq_iff_eq, decide_eq_true_iff]
    exact ⟨token_of_injective, congrArg tokenOf⟩
  simp only [pageReply, htoken]
  by_cases hindex : index < (tables.pagesOf path).length
  · have hfind : (List.range (tables.pagesOf path).length).find? (decide <| · = index) =
        some index := by
      rw [List.find?_range_eq_some]
      exact ⟨by simp, by simpa using hindex, fun other hother ↦ by simp; omega⟩
    rw [hfind]
    simp only [List.getElem?_eq_getElem hindex]
    cases (tables.pagesOf path)[index] <;> rfl
  · have hfind : (List.range (tables.pagesOf path).length).find? (decide <| · = index) = none := by
      simp only [List.find?_eq_none, List.mem_range, decide_eq_true_eq]
      omega
    rw [hfind, List.getElem?_eq_none (Nat.le_of_not_lt hindex)]

/-- From a page on there are as many pages as are listed, and an empty one beyond the last. -/
theorem pages_end_token_of (tables : Tables) (path : String) {bound : Nat} (index : Nat)
    (h : (tables.pagesOf path).length ≤ index + bound) :
    PagesEnd (tables.pageReply path) (bound + 1) (tokenOf index) := by
  induction bound generalizing index with
  | zero =>
      have hnone : (tables.pagesOf path)[index]? = none := List.getElem?_eq_none h
      simp only [PagesEnd, page_reply_token_of, hnone]
  | succ bound ih =>
      rw [PagesEnd, page_reply_token_of]
      match (tables.pagesOf path)[index]? with
      | none => trivial
      | some .fault => trivial
      | some (.entries entries) =>
          by_cases hlater : index + 1 < (tables.pagesOf path).length
          · have hnext : tokenOf (index + 1) = some s!"t{index + 1}" := rfl
            simp only [tokenAfter, hlater, if_true, hnext]
            exact .inr (hnext ▸ ih (index + 1) (by omega))
          · simp only [tokenAfter, hlater, if_false]
            cases tables.emptyLastToken
            · trivial
            · exact .inl rfl

/-- The service that answers from the tables. -/
def service (tables : Tables) : Service where
  parameter name := (tables.parameters.lookup name).getD .unknown
  page := tables.pageReply
  pageBound path := (tables.pagesOf path).length + 1
  pagesEnd path := tables.pages_end_token_of path 0 (by simp)

end Tables

end ConfigFill.Service
