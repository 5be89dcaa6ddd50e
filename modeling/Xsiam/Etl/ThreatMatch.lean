import Xsiam.Etl.Applied
import Xsiam.Lib.Wildcard

/-!
# Looking up indicators

`lookup_threat` prints the values of an entry and asks `IocRepo.Search` for each, in turn, until
one finds something. The query is a pattern search, over the value and the threat name of the
indicators of the tenant, in no order. So an indicator that only contains the value is found, or one
that a wildcard in it stands for; and a field that is missing is printed too, and looked up as
`<nil>`. What is written is exact only where all that could be found first is
(`Xsiam.Etl.threat_exact_iff`).
-/

namespace Xsiam

namespace Etl

open Go Wildcard

/-! ### The query -/

deriving instance DecidableEq for IOC

/-- An indicator as it is stored: what the executor reads of it, and what the query looks at
besides. -/
structure StoredIOC extends IOC where
  tenantID : GoString
  threatName : GoString
deriving DecidableEq

/-- The characters of a text. The counter is what is left of the one being passed over. -/
def runes : ℕ → GoString → List ℕ
  | _, [] => []
  | k + 1, _ :: bs => runes k bs
  | 0, b :: bs => (decodeRune b bs).1 :: runes (decodeRune b bs).2 bs

/-- `LOWER(s)` -/
def lower (s : GoString) : List ℕ := (runes 0 s).map unicodeToLower

/-- What a character of a pattern stands for. -/
def likeItem (c : ℕ) : Item ℕ := if c = 0x25 then .run else if c = 0x5F then .one else .letter c

/-- The pattern of `LIKE`. The flag says whether the character before is a backslash, which takes
the meaning of a wildcard or of another backslash. -/
def likePattern : Bool → List ℕ → List (Item ℕ)
  | false, [] => []
  | true, [] => [.letter 0x5C]
  | false, c :: cs => if c = 0x5C then likePattern true cs else likeItem c :: likePattern false cs
  | true, c :: cs =>
    if c = 0x25 ∨ c = 0x5F ∨ c = 0x5C then .letter c :: likePattern false cs
    else .letter 0x5C :: .letter c :: likePattern false cs

/-- `LOWER(attr) LIKE LOWER(CONCAT('%', @q, '%'))` -/
def likeLower (attr q : GoString) : Bool :=
  fits (likePattern false (0x25 :: lower q ++ [0x25])) (lower attr)

/-- The filters of `IocRepo.Search`. -/
def searched (tenantID q : GoString) (d : StoredIOC) : Bool :=
  d.tenantID = tenantID && (likeLower d.value q || likeLower d.threatName q)

/-- How `IocRepo.Search` answers: with as many of the documents the filters let through as the limit
allows, in any order. -/
def Answers (docs : List StoredIOC)
    (search : ℕ → GoString → GoString → ℕ → Option (List IOC)) : Prop :=
  ∀ tick tenantID q limit, ∃ found : List StoredIOC,
    search tick tenantID q limit = some (found.map (·.toIOC)) ∧
    found.Subperm (docs.filter (searched tenantID q)) ∧
    found.length = min (if limit = 0 then 20 else limit) (docs.filter (searched tenantID q)).length

/-! ### The action -/

/-- The indicator `lookup_threat` finds. -/
def threatHit (ex : ActionExecutor) (search : ℕ → GoString → GoString → ℕ → Option (List IOC))
    (tick : ℕ) (e : LogEntry) : Option IOC :=
  (collectIOCCandidates ex.lib e).findSome? fun val =>
    ((search tick e.tenantID val 10).getD []).head?

/-- What it writes. -/
def threatFields : Option IOC → List (GoString × Value)
  | none => []
  | some ioc =>
    [(str "ioc_match", .bool true), (str "ioc_verdict", .str ioc.verdict),
      (str "ioc_type", .str ioc.type), (str "ioc_confidence", .float ioc.confidence),
      (str "ioc_value", .str ioc.value)]

theorem lookupThreat_eq (ex : ActionExecutor)
    (search : ℕ → GoString → GoString → ℕ → Option (List IOC)) (tick : ℕ) (e : LogEntry) :
    lookupThreat { ex with iocRepo := some search } tick e =
      setEntries e (threatFields (threatHit ex search tick e)) := by
  simp only [lookupThreat, threatHit]
  cases (collectIOCCandidates ex.lib e).findSome? fun val =>
    ((search tick e.tenantID val 10).getD []).head? with
  | none => rfl
  | some ioc => rfl

/-- The names of the fields that are looked up, besides the source address. -/
def iocFields : List String := ["dst_ip", "file_hash", "domain", "url"]

theorem mem_collectIOCCandidates {lib : StdLib} {e : LogEntry} {v : GoString} :
    v ∈ collectIOCCandidates lib e ↔ v ≠ [] ∧
      (v = e.sourceIP ∨ ∃ k ∈ iocFields, v = lib.sprint ((e.fields[str k]?).getD .null)) := by
  have hfold : ∀ (vs out : List GoString),
      v ∈ vs.foldl (fun out v => if v = [] ∨ v ∈ out then out else out ++ [v]) out ↔
        v ∈ out ∨ v ≠ [] ∧ v ∈ vs := by
    intro vs
    induction vs with
    | nil => simp
    | cons w vs ih =>
      intro out
      rw [List.foldl_cons, ih, List.mem_cons]
      split_ifs with hw
      · have hseen : v = w → v ≠ [] → v ∈ out := by
          rintro rfl hne
          exact hw.resolve_left hne
        tauto
      · rw [List.mem_append, List.mem_singleton]
        have hne : v = w → v ≠ [] := by
          rintro rfl
          exact (not_or.mp hw).1
        tauto
  rw [collectIOCCandidates, hfold]
  simp [iocFields]

/-! ### Values that are there -/

/-- The values of an entry that indicators are about: its source address, and the fields that are
there, none of them empty. -/
def presentValues (lib : StdLib) (e : LogEntry) : List GoString :=
  (e.sourceIP :: iocFields.filterMap fun k =>
    (e.fields[str k]?).bind fun v =>
      if v = .null then none else some (lib.sprint v)).filter (· ≠ [])

/-- An indicator of the tenant is about a value: it is equal to it, ignoring case. -/
def About (e : LogEntry) (d : StoredIOC) (v : GoString) : Prop :=
  d.tenantID = e.tenantID ∧ lower d.value = lower v

instance (e : LogEntry) (d : StoredIOC) (v : GoString) : Decidable (About e d v) :=
  inferInstanceAs (Decidable (_ ∧ _))

/-- What `lookup_threat` finds is exact: an indicator that is about a value of the entry, if there
is one, and nothing otherwise. -/
def Exact (lib : StdLib) (docs : List StoredIOC) (e : LogEntry) (hit : Option IOC) : Prop :=
  (hit.isSome ↔ ∃ d ∈ docs, ∃ v ∈ presentValues lib e, About e d v) ∧
    ∀ ioc ∈ hit, ∃ d ∈ docs, d.toIOC = ioc ∧ ∃ v ∈ presentValues lib e, About e d v

instance (lib : StdLib) (docs : List StoredIOC) (e : LogEntry) (hit : Option IOC) :
    Decidable (Exact lib docs e hit) :=
  inferInstanceAs (Decidable (_ ∧ _))

/-- A candidate finds something. -/
def Finds (docs : List StoredIOC) (e : LogEntry) (c : GoString) : Prop :=
  ∃ d ∈ docs, searched e.tenantID c d = true

instance (docs : List StoredIOC) (e : LogEntry) (c : GoString) : Decidable (Finds docs e c) :=
  inferInstanceAs (Decidable (∃ d ∈ docs, _))

/-- The first candidate that finds something finds only indicators that are about values of the
entry, and a value with a backslash that an indicator is about does not go unnoticed. -/
def Precise (lib : StdLib) (docs : List StoredIOC) (e : LogEntry) : Prop :=
  (∀ c ∈ (collectIOCCandidates lib e).find? fun c => Finds docs e c,
    ∀ d ∈ docs, searched e.tenantID c d = true → ∃ v ∈ presentValues lib e, About e d v) ∧
  ∀ v ∈ presentValues lib e, 0x5C ∈ lower v → (∃ d ∈ docs, About e d v) →
    ∃ c ∈ collectIOCCandidates lib e, Finds docs e c

theorem candidate_of_mem_presentValues {lib : StdLib} {e : LogEntry} {v : GoString}
    (hv : v ∈ presentValues lib e) : v ∈ collectIOCCandidates lib e := by
  rw [presentValues, List.mem_filter, List.mem_cons, List.mem_filterMap] at hv
  obtain ⟨hv, hne⟩ := hv
  refine mem_collectIOCCandidates.mpr ⟨by simpa using hne, hv.imp_right ?_⟩
  rintro ⟨k, hk, hbind⟩
  obtain ⟨w, hw, hprinted⟩ := Option.bind_eq_some_iff.mp hbind
  split_ifs at hprinted
  refine ⟨k, hk, ?_⟩
  rw [hw, Option.getD_some, Option.some.inj hprinted]

/-- **A value without a backslash finds every indicator that is about it.** -/
theorem searched_of_about {e : LogEntry} {d : StoredIOC} {v : GoString} (h : About e d v)
    (hplain : 0x5C ∉ lower v) : searched e.tenantID v d = true := by
  have hpattern : ∀ s : List ℕ, 0x5C ∉ s →
      likePattern false (s ++ [0x25]) = s.map likeItem ++ [.run] := by
    intro s
    induction s with
    | nil => exact fun _ => rfl
    | cons c s ih =>
      intro hs
      obtain ⟨hc, hs⟩ := List.ne_and_not_mem_of_not_mem_cons hs
      rw [List.cons_append, likePattern, if_neg (Ne.symm hc), ih hs]
      rfl
  have hitem : ∀ c, Stands (likeItem c) c := by
    intro c
    rw [likeItem]
    split_ifs
    · exact .inr (.inr rfl)
    · exact .inr (.inl rfl)
    · exact .inl rfl
  have hrun : fits [Item.run] ([] : List ℕ) = true := by decide
  have hfits := fits_append_of_stands hitem hrun (lower v)
  have hlike : likeLower d.value v = true := by
    rw [likeLower, List.cons_append, likePattern, if_neg (by decide), hpattern _ hplain, h.2]
    refine fits_run_iff.mpr ⟨[], lower v, rfl, ?_⟩
    rwa [List.append_nil] at hfits
  rw [searched, h.1, hlike]
  simp

/-! ### What is found -/

theorem findSome?_eq_bind {α β : Type} {f : α → Option β} {p : α → Bool}
    (h : ∀ a, p a = (f a).isSome) (l : List α) : l.findSome? f = (l.find? p).bind f := by
  induction l with
  | nil => rfl
  | cons a l ih =>
    rw [List.findSome?_cons, List.find?_cons, h]
    cases hf : f a with
    | none => exact ih
    | some b => exact hf.symm

section Found

variable {docs : List StoredIOC} {search : ℕ → GoString → GoString → ℕ → Option (List IOC)}

/-- What comes first of an answer is one of the indicators that are searched for, and there is one
if there are any. -/
theorem Answers.head (h : Answers docs search) (tick : ℕ) (e : LogEntry) (c : GoString) :
    decide (Finds docs e c) = (((search tick e.tenantID c 10).getD []).head?).isSome ∧
      ∀ ioc ∈ ((search tick e.tenantID c 10).getD []).head?,
        ∃ d ∈ docs, searched e.tenantID c d = true ∧ d.toIOC = ioc := by
  obtain ⟨found, hanswer, hsub, hlen⟩ := h tick e.tenantID c 10
  rw [hanswer, Option.getD_some]
  rw [if_neg (by decide)] at hlen
  cases found with
  | nil =>
    -- nothing is found only where there is nothing
    have hnone : (docs.filter (searched e.tenantID c)).length = 0 := by
      rw [List.length_nil] at hlen
      omega
    rw [List.length_eq_zero_iff, List.filter_eq_nil_iff] at hnone
    refine ⟨decide_eq_false ?_, fun ioc hioc => nomatch hioc⟩
    rintro ⟨d, hd, hsearched⟩
    exact hnone d hd hsearched
  | cons d found =>
    obtain ⟨hd, hsearched⟩ := List.mem_filter.mp (hsub.subset List.mem_cons_self)
    refine ⟨decide_eq_true ⟨d, hd, hsearched⟩, fun ioc hioc => ⟨d, hd, hsearched, ?_⟩⟩
    exact Option.some.inj hioc

/-- The first candidate that finds something decides. -/
theorem Answers.hit (h : Answers docs search) (ex : ActionExecutor) (tick : ℕ) (e : LogEntry) :
    threatHit ex search tick e =
      ((collectIOCCandidates ex.lib e).find? fun c => Finds docs e c).bind fun c =>
        ((search tick e.tenantID c 10).getD []).head? :=
  findSome?_eq_bind (fun c => (h.head tick e c).1) _

/-- An answer that begins with a given indicator, wherever it is found. -/
def searchFrom (docs : List StoredIOC) (d : StoredIOC) :
    ℕ → GoString → GoString → ℕ → Option (List IOC) :=
  fun _ tenantID q limit =>
    let found := docs.filter (searched tenantID q)
    some (((if d ∈ found then d :: found.erase d else found).take
      (if limit = 0 then 20 else limit)).map (·.toIOC))

theorem answers_searchFrom (docs : List StoredIOC) (d : StoredIOC) :
    Answers docs (searchFrom docs d) := by
  intro tick tenantID q limit
  have hperm : (if d ∈ docs.filter (searched tenantID q) then
      d :: (docs.filter (searched tenantID q)).erase d
      else docs.filter (searched tenantID q)).Perm (docs.filter (searched tenantID q)) := by
    split_ifs with hd
    · exact (List.perm_cons_erase hd).symm
    · exact .refl _
  refine ⟨_, rfl, (List.take_sublist _ _).subperm.trans hperm.subperm, ?_⟩
  rw [List.length_take, hperm.length_eq]

theorem head_searchFrom {d : StoredIOC} (hd : d ∈ docs) {e : LogEntry} {c : GoString}
    (hsearched : searched e.tenantID c d = true) (tick : ℕ) :
    ((searchFrom docs d tick e.tenantID c 10).getD []).head? = some d.toIOC := by
  rw [searchFrom, Option.getD_some]
  rw [if_pos (List.mem_filter.mpr ⟨hd, hsearched⟩), if_neg (by decide)]
  rfl

end Found

/-- **What `lookup_threat` writes is exact, whatever comes first of what a query finds, if and only
if what the first candidate finds is.** -/
theorem threat_exact_iff (ex : ActionExecutor) (docs : List StoredIOC) (e : LogEntry) :
    (∀ search, Answers docs search → ∀ tick,
      lookupThreat { ex with iocRepo := some search } tick e =
        setEntries e (threatFields (threatHit ex search tick e)) ∧
      Exact ex.lib docs e (threatHit ex search tick e)) ↔ Precise ex.lib docs e := by
  constructor
  · intro h
    constructor
    · intro c hc d hd hsearched
      -- a search that has the document first
      obtain ⟨-, -, hexact⟩ := h _ (answers_searchFrom docs d) 0
      rw [(answers_searchFrom docs d).hit, Option.mem_def.mp hc] at hexact
      obtain ⟨d', -, heq, v, hv, hlower⟩ := hexact d.toIOC (head_searchFrom hd hsearched 0)
      refine ⟨v, hv, ?_, ?_⟩
      · rw [searched, Bool.and_eq_true, decide_eq_true_eq] at hsearched
        exact hsearched.1
      · rw [← hlower.2, heq]
    · rintro v hv - ⟨d, hd, habout⟩
      obtain ⟨-, hsome, -⟩ := h _ (answers_searchFrom docs d) 0
      have hhit := hsome.mpr ⟨d, hd, v, hv, habout⟩
      rw [(answers_searchFrom docs d).hit] at hhit
      cases hfind : (collectIOCCandidates ex.lib e).find? fun c => Finds docs e c with
      | none =>
        rw [hfind] at hhit
        exact nomatch hhit
      | some c => exact ⟨c, List.mem_of_find?_eq_some hfind, by simpa using List.find?_some hfind⟩
  · rintro ⟨hfirst, hbackslash⟩ search hanswers tick
    refine ⟨lookupThreat_eq ex search tick e, ?_⟩
    rw [hanswers.hit]
    cases hfind : (collectIOCCandidates ex.lib e).find? fun c => Finds docs e c with
    | none =>
      have hnone : ∀ c ∈ collectIOCCandidates ex.lib e, ¬Finds docs e c := by
        simpa using List.find?_eq_none.mp hfind
      refine ⟨iff_of_false (fun h => nomatch h) ?_, fun ioc hioc => nomatch hioc⟩
      rintro ⟨d, hd, v, hv, habout⟩
      -- a value with a backslash is searched for with another one
      by_cases hplain : 0x5C ∈ lower v
      · obtain ⟨c, hc, hfinds⟩ := hbackslash v hv hplain ⟨d, hd, habout⟩
        exact hnone c hc hfinds
      · exact hnone v (candidate_of_mem_presentValues hv) ⟨d, hd, searched_of_about habout hplain⟩
    | some c =>
      obtain ⟨hfinds, hhead⟩ := hanswers.head tick e c
      have hc : Finds docs e c := by simpa using List.find?_some hfind
      rw [decide_eq_true hc] at hfinds
      obtain ⟨ioc, hioc⟩ := Option.isSome_iff_exists.mp hfinds.symm
      obtain ⟨d, hd, hsearched, rfl⟩ := hhead ioc hioc
      obtain ⟨v, hv, habout⟩ := hfirst c hfind d hd hsearched
      rw [Option.bind_some, hioc]
      refine ⟨iff_of_true rfl ⟨d, hd, v, hv, habout⟩, fun ioc' hioc' => ?_⟩
      exact ⟨d, hd, Option.some.inj hioc', v, hv, habout⟩

/-- An indicator of a tenant. -/
def indicator (value : String) : StoredIOC where
  type := str "ip"
  value := str value
  verdict := str "malicious"
  confidence := ⟨0⟩
  tenantID := str "t1"
  threatName := str "scanner"

/-- An address that another one begins with, a host name with a wildcard in it, and an entry that
has no field at all: each of them finds an indicator that is about none of its values. -/
theorem not_threat_exact :
    (Answers [indicator "10.0.0.12"] (searchFrom [indicator "10.0.0.12"] (indicator "10.0.0.12")) ∧
      ¬Exact literalLib [indicator "10.0.0.12"]
        { entryWith (str "t1") [] with sourceIP := str "10.0.0.1" }
        (threatHit plainExecutor (searchFrom [indicator "10.0.0.12"] (indicator "10.0.0.12")) 0
          { entryWith (str "t1") [] with sourceIP := str "10.0.0.1" })) ∧
    ¬Exact literalLib [indicator "axb.test"]
      (entryWith (str "t1") [(str "domain", .str (str "a_b.test"))])
      (threatHit plainExecutor (searchFrom [indicator "axb.test"] (indicator "axb.test")) 0
        (entryWith (str "t1") [(str "domain", .str (str "a_b.test"))])) ∧
    ¬Exact literalLib [indicator "/<nil>/"] (entryWith (str "t1") [])
      (threatHit plainExecutor (searchFrom [indicator "/<nil>/"] (indicator "/<nil>/")) 0
        (entryWith (str "t1") [])) :=
  ⟨⟨answers_searchFrom _ _, by decide +kernel⟩, by decide +kernel, by decide +kernel⟩

end Etl

end Xsiam
