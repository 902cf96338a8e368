import Chronicle.Proofs.Table.Listings
import Chronicle.Proofs.Store.Chains

namespace Chronicle

namespace Collection

section

variable {ε σ : Type} [Entity ε] [Tables σ] {c : Collection ε} {tables : σ} {id : Identifier} {e : ε}
  {index value : String} {follow : IndexRef → Except Error (Option ε)} {found : IndexRef → Option ε}
  {refs : List IndexRef}

lemma confirm_of_current {o : Option ε} (h : c.current tables id = .ok o) :
    c.confirm tables index value id = .ok (o.filter fun e => Entity.Carries e index value) := by
  rw [confirm, h]
  rfl

lemma current_of_confirm (h : c.confirm tables index value id = .ok (some e)) :
    c.current tables id = .ok (some e) ∧ Entity.Carries e index value := by
  cases hcurrent : c.current tables id with
  | error err =>
    rw [confirm, hcurrent] at h
    cases h
  | ok o =>
    rw [confirm_of_current hcurrent] at h
    obtain ⟨rfl, hcarries⟩ := Option.filter_eq_some_iff.1 (Except.ok.inj h)
    exact ⟨rfl, by simpa using hcarries⟩

omit [Entity ε] in
lemma sift_eq (h : ∀ ref ∈ refs, follow ref = .ok (found ref)) : sift follow refs =
    .ok (refs.filterMap found, (refs.filter fun ref => (found ref).isNone).map (·.entity)) := by
  induction refs with
  | nil => rfl
  | cons ref refs ih =>
    obtain ⟨href, hrefs⟩ := List.forall_mem_cons.1 h
    rw [sift, href, ih hrefs, List.filterMap_cons, List.filter_cons]
    cases found ref <;> rfl

omit [Entity ε] in
lemma siftPage_eq {after next : Option Identifier} {limit : Nat} (h : ∀ ref, follow ref = .ok (found ref))
    (hpage : (Source.ofIndex tables index value).page limit after = .ok ⟨refs, next⟩) :
    siftPage tables index value after limit follow =
      .ok ⟨refs.filterMap found, (refs.filter fun ref => (found ref).isNone).map (·.entity), next⟩ := by
  rw [siftPage, hpage]
  simp only [bind, Except.bind, sift_eq fun ref _ => h ref]
  rfl

end

variable {ε : Type} [Entity ε] {c : Collection ε} {t : MemoryTables} {id : Identifier} {e : ε} {err : Error}
  {index value : String} {except : Option Identifier}

def follow (c : Collection ε) (t : MemoryTables) (index value : String) (except : Option Identifier)
    (ref : IndexRef) : Except Error (Option ε) :=
  if some ref.entity = except then .ok none else c.confirm t index value ref.entity

lemma holderBut?_eq (c : Collection ε) (t : MemoryTables) (index value : String) (except : Option Identifier) :
    c.holderBut? t index value except =
      Source.firstSome (c.follow t index value except) (t.refsAfter index value none) := by
  change (Source.ofIndex t index value).search holderPage (c.follow t index value except) none = _
  rw [Source.search_eq (t.lists_ofIndex index value) (by decide), Source.rowsAfter_none]

lemma holder_of_holderBut? (h : c.holderBut? t index value except = .ok (some e)) :
    ∃ id, some id ≠ except ∧ c.current t id = .ok (some e) ∧ Entity.Carries e index value := by
  rw [holderBut?_eq] at h
  obtain ⟨ref, _, href⟩ := Source.exists_of_firstSome h
  unfold follow at href
  split at href
  · cases href
  · next hne => exact ⟨ref.entity, hne, current_of_confirm href⟩

lemma RowsRead.holderBut?_isSome (h : c.RowsRead t) (index value : String) (except : Option Identifier) :
    ∃ o, c.holderBut? t index value except = .ok o ∧ (o.isSome ↔
      ∃ ref ∈ t.refsAfter index value none, some ref.entity ≠ except ∧
        ∃ e, c.current t ref.entity = .ok (some e) ∧ Entity.Carries e index value) := by
  have hfollow : ∀ ref, ∃ o, c.follow t index value except ref = .ok o ∧ (o.isSome ↔ some ref.entity ≠ except ∧
      ∃ e, c.current t ref.entity = .ok (some e) ∧ Entity.Carries e index value) := by
    intro ref
    obtain ⟨o, hcurrent, _⟩ := h.current_ok ref.entity
    by_cases hexcept : some ref.entity = except
    · exact ⟨none, by rw [follow, if_pos hexcept], by simp [hexcept]⟩
    · refine ⟨_, by rw [follow, if_neg hexcept, confirm_of_current hcurrent], ?_⟩
      cases o with
      | none => simp [hcurrent]
      | some e => simp [hcurrent, hexcept, Option.filter, apply_ite]
  obtain ⟨g, hg⟩ := Classical.axiomOfChoice hfollow
  obtain ⟨o, ho, hiff⟩ := Source.firstSome_isSome_iff (t.refsAfter index value none) fun ref _ => (hg ref).1
  refine ⟨o, by rw [holderBut?_eq, ho], hiff.trans ?_⟩
  exact exists_congr fun ref => and_congr_right fun _ => (hg ref).2

lemma current_error (h : c.current t id = .error err) : err = .storage .undecodable := by
  rw [current_eq] at h
  cases hl : (t.chain c.table id).getLast? with
  | none => rw [hl] at h; cases h
  | some v =>
    rw [hl] at h
    change (do let e ← c.decode v; return some e : Except Error (Option ε)) = _ at h
    unfold decode at h
    split at h
    · cases h
    · cases h
      rfl

lemma holderBut?_error (h : c.holderBut? t index value except = .error err) : err = .storage .undecodable := by
  rw [holderBut?_eq] at h
  obtain ⟨ref, _, href⟩ := Source.exists_of_firstSome_error h
  unfold follow at href
  split at href
  · cases href
  · cases hcurrent : c.current t ref.entity with
    | error err' =>
      rw [confirm, hcurrent] at href
      cases href
      exact current_error hcurrent
    | ok o =>
      rw [confirm_of_current hcurrent] at href
      cases href

omit [Entity ε] in
lemma sift_ok {follow : IndexRef → Except Error (Option ε)} (h : ∀ ref, ∃ o, follow ref = .ok o)
    (refs : List IndexRef) : ∃ items stale, sift follow refs = .ok (items, stale) ∧
      ∀ ref ∈ refs, ∀ e, follow ref = .ok (some e) → e ∈ items := by
  choose found hfound using h
  refine ⟨_, _, sift_eq fun ref _ => hfound ref, fun ref href e he => ?_⟩
  exact List.mem_filterMap.2 ⟨ref, href, Except.ok.inj ((hfound ref).symm.trans he)⟩

omit [Entity ε] in
lemma exists_of_mem_sift {follow : IndexRef → Except Error (Option ε)} {refs : List IndexRef} {items : List ε}
    {stale : List Identifier} (h : sift follow refs = .ok (items, stale)) (he : e ∈ items) :
    ∃ ref ∈ refs, follow ref = .ok (some e) := by
  induction refs generalizing items stale with
  | nil =>
    cases h
    cases he
  | cons ref refs ih =>
    cases ho : follow ref with
    | error err =>
      rw [sift, ho] at h
      cases h
    | ok o =>
      cases hrest : sift follow refs with
      | error err =>
        rw [sift, ho, hrest] at h
        cases h
      | ok rest =>
        have hlater : e ∈ rest.1 → ∃ r ∈ ref :: refs, follow r = .ok (some e) := fun hmem =>
          have ⟨r, hr, hfollow⟩ := ih hrest hmem
          ⟨r, List.mem_cons_of_mem _ hr, hfollow⟩
        rw [sift, ho, hrest] at h
        cases o with
        | none =>
          cases h
          exact hlater he
        | some e₀ =>
          cases h
          rcases List.mem_cons.1 he with rfl | he
          · exact ⟨ref, List.mem_cons_self, ho⟩
          · exact hlater he

omit [Entity ε] in
lemma sift_of_found {follow : IndexRef → Except Error (Option ε)} {refs : List IndexRef}
    (h : ∀ ref ∈ refs, ∃ e, follow ref = .ok (some e)) : ∃ items, sift follow refs = .ok (items, []) := by
  induction refs with
  | nil => exact ⟨[], rfl⟩
  | cons ref refs ih =>
    obtain ⟨⟨e, he⟩, hrefs⟩ := List.forall_mem_cons.1 h
    obtain ⟨items, hitems⟩ := ih hrefs
    exact ⟨e :: items, by rw [sift, he, hitems]; rfl⟩

omit [Entity ε] in
lemma siftPage_of_found {follow : IndexRef → Except Error (Option ε)} {limit : Nat} (hlimit : 0 < limit)
    (after : Option Identifier) (h : ∀ place cell, t.indexes.get? ⟨index, value, place⟩ = some cell →
      ∃ e, follow ⟨place, cell.entity⟩ = .ok (some e)) :
    ∃ page, siftPage t index value after limit follow = .ok page ∧ page.stale = [] := by
  obtain ⟨next, hpage, _⟩ := Source.page_eq (t.lists_ofIndex index value) hlimit after
  have hfound : ∀ ref ∈ ((Source.ofIndex t index value).rowsAfter (t.refsAfter index value none) after).take limit,
      ∃ e, follow ref = .ok (some e) := by
    intro ref href
    obtain ⟨expires, hget⟩ := MemoryTables.mem_refsAfter.1 (List.mem_filter.1 (List.mem_of_mem_take href)).1
    exact h ref.place _ hget
  obtain ⟨items, hitems⟩ := sift_of_found hfound
  refine ⟨⟨items, [], next⟩, ?_, rfl⟩
  rw [siftPage, hpage]
  simp only [bind, Except.bind, hitems]
  rfl

lemma row_of_mem_lookup {after : Option Identifier} {limit : Nat} {page : LookupPage ε}
    (h : c.lookup t index value after limit = .ok page) (he : e ∈ page.items) :
    ∃ place id expires, t.indexes.get? ⟨index, value, place⟩ = some ⟨id, expires⟩ ∧
      c.current t id = .ok (some e) ∧ Entity.Carries e index value := by
  rcases Nat.eq_zero_or_pos limit with rfl | hlimit
  · cases h
  · obtain ⟨next, hpage, _⟩ := Source.page_eq (t.lists_ofIndex index value) hlimit after
    rw [lookup, siftPage, hpage] at h
    simp only [bind, Except.bind] at h
    split at h
    · cases h
    · next hsift =>
      cases h
      obtain ⟨ref, href, hconfirm⟩ := exists_of_mem_sift hsift he
      obtain ⟨expires, hget⟩ := MemoryTables.mem_refsAfter.1 (List.mem_filter.1 (List.mem_of_mem_take href)).1
      exact ⟨ref.place, ref.entity, expires, hget, current_of_confirm hconfirm⟩

lemma RowsRead.mem_lookup {expires : Option Int64} {place : Identifier} (h : c.RowsRead t)
    (hcurrent : c.current t id = .ok (some e)) (hcarries : Entity.Carries e index value)
    (hget : t.indexes.get? ⟨index, value, place⟩ = some ⟨id, expires⟩) :
    ∃ limit page, c.lookup t index value none limit = .ok page ∧ e ∈ page.items := by
  have hmem : (⟨place, id⟩ : IndexRef) ∈ t.refsAfter index value none := MemoryTables.mem_refsAfter.2 ⟨expires, hget⟩
  have hfollow : ∀ ref : IndexRef, ∃ o, c.confirm t index value ref.entity = .ok o := by
    intro ref
    obtain ⟨o, ho, _⟩ := h.current_ok ref.entity
    exact ⟨_, confirm_of_current ho⟩
  obtain ⟨items, stale, hsift, hitems⟩ := sift_ok hfollow (t.refsAfter index value none)
  obtain ⟨next, hpage, _⟩ := Source.page_eq (t.lists_ofIndex index value) (List.length_pos_of_mem hmem) none
  rw [Source.rowsAfter_none, List.take_length] at hpage
  refine ⟨(t.refsAfter index value none).length, ⟨items, stale, next⟩, ?_, hitems _ hmem e ?_⟩
  · rw [lookup, siftPage, hpage]
    simp only [bind, Except.bind, hsift]
    rfl
  · rw [confirm_of_current hcurrent]
    simp [Option.filter, hcarries]

lemma refuseTaken_cons (c : Collection ε) (t : MemoryTables) (id : Identifier) (a : Attribute)
    (attrs : List Attribute) : c.refuseTaken t id (a :: attrs) =
      if a.unique then
        match c.holderBut? t a.index a.value (some id) with
        | .error err => .error err
        | .ok (some _) => .error (.valueTaken a.index a.value)
        | .ok none => c.refuseTaken t id attrs
      else c.refuseTaken t id attrs := by
  rw [refuseTaken]
  cases a.unique with
  | false => rfl
  | true =>
    cases c.holderBut? t a.index a.value (some id) with
    | error err => rfl
    | ok o => cases o <;> rfl

lemma holder_of_refuseTaken {attrs : List Attribute}
    (h : c.refuseTaken t id attrs = .error (.valueTaken index value)) :
    ∃ a ∈ attrs, a.unique = true ∧ a.Matches index value ∧
      ∃ id', id' ≠ id ∧ ∃ e, c.current t id' = .ok (some e) ∧ Entity.Carries e index value := by
  induction attrs with
  | nil => cases h
  | cons a attrs ih =>
    rw [refuseTaken_cons] at h
    split at h
    · next hunique =>
      split at h
      · next err herr =>
        cases h
        cases holderBut?_error herr
      · next e he =>
        cases h
        obtain ⟨id', hne, hcurrent, hcarries⟩ := holder_of_holderBut? he
        exact ⟨a, List.mem_cons_self, hunique, ⟨rfl, rfl⟩, id', by simpa using hne, e, hcurrent, hcarries⟩
      · obtain ⟨b, hb, hrest⟩ := ih h
        exact ⟨b, List.mem_cons_of_mem _ hb, hrest⟩
    · obtain ⟨b, hb, hrest⟩ := ih h
      exact ⟨b, List.mem_cons_of_mem _ hb, hrest⟩

lemma refuseTaken_of_not_unique {attrs : List Attribute} (h : ∀ a ∈ attrs, a.unique = false) :
    c.refuseTaken t id attrs = .ok () := by
  induction attrs with
  | nil => rfl
  | cons a attrs ih =>
    rw [refuseTaken_cons, h a List.mem_cons_self]
    exact ih fun b hb => h b (List.mem_cons_of_mem _ hb)

end Collection

namespace Store

variable {ε γ : Type} [Entity ε] [Clock γ] {c : Collection ε} {s : Store MemoryTables γ} {e : ε}
  {index value : String} {x : Call ε MemoryTables γ}

lemma issue_ne_valueTaken : s.issue.1 ≠ .error (.valueTaken index value) := by
  intro h
  rcases Issuer.error_of_issue h with h | h <;> cases h

lemma chooseId_ne_valueTaken : (s.chooseId c e).1 ≠ .error (.valueTaken index value) := by
  intro h
  unfold chooseId at h
  split at h
  · exact issue_ne_valueTaken h
  · split at h
    · next hlatest => cases hlatest
    · cases h
    · cases h

lemma Call.refuseTaken_of_reply (h : x.reply c = .refused (.valueTaken index value)) :
    ∃ id e, PastAllocation c x.before x.request id e ∧
      c.refuseTaken x.before.tables id (Entity.attributes e) = .error (.valueTaken index value) := by
  obtain ⟨s, request⟩ := x
  cases request with
  | create e =>
    have herr : (s.create c e).1 = .error (.valueTaken index value) := by
      rcases hcreate : s.create c e with ⟨_ | _, s'⟩ <;> simp only [reply, outcome, hcreate] at h <;> cases h
      rfl
    rcases error_of_create herr with hchoose | ⟨id, hid, htaken | ⟨v, hput⟩⟩
    · exact absurd hchoose chooseId_ne_valueTaken
    · exact ⟨id, _, .create hid, htaken⟩
    · obtain ⟨_, hfault⟩ := MemoryTables.error_of_put hput
      cases hfault
  | update e =>
    have herr : (s.update c e).1 = .error (.valueTaken index value) := by
      rcases hupdate : s.update c e with ⟨_ | _, s'⟩ <;> simp only [reply, outcome, hupdate] at h <;> cases h
      rfl
    rcases error_of_update herr with hmissing | ⟨id, hid, hcurrent | hissue | ⟨u, hissue, htaken | ⟨v, hput⟩⟩⟩
    · cases hmissing
    · cases Collection.current_error hcurrent
    · exact absurd hissue issue_ne_valueTaken
    · exact ⟨id, _, .update hid hissue, htaken⟩
    · obtain ⟨_, hfault⟩ := MemoryTables.error_of_put hput
      cases hfault
  | delete id =>
    have herr : (s.delete c id).1 = .error (.valueTaken index value) := by
      rcases hdelete : s.delete c id with ⟨_ | _, s'⟩ <;> simp only [reply, outcome, hdelete] at h <;> cases h
      rfl
    unfold delete at herr
    rw [carryOut_eq] at herr
    cases hcurrent : c.current s.tables id with
    | error err =>
      simp only [hcurrent, bind, Except.bind] at herr
      cases herr
      cases Collection.current_error hcurrent
    | ok current =>
      simp only [hcurrent, bind, Except.bind, pure, Except.pure, changePrimary] at herr
      cases herr

lemma Call.reply_of_refuseTaken {id : Identifier} (hrows : c.RowsRead x.before.tables)
    (hpast : PastAllocation c x.before x.request id e)
    (h : c.refuseTaken x.before.tables id (Entity.attributes e) = .error (.valueTaken index value)) :
    x.reply c = .refused (.valueTaken index value) := by
  obtain ⟨s, request⟩ := x
  cases hpast with
  | @create e id hid =>
    have herr := create_refused hid h
    rcases hcreate : s.create c e with ⟨_ | _, s'⟩ <;> rw [hcreate] at herr <;> cases herr
    simp only [reply, outcome, hcreate]
  | @update e id u hid hissue =>
    obtain ⟨previous, hcurrent, _⟩ := hrows.current_ok id
    have herr := update_refused hid hcurrent hissue h
    rcases hupdate : s.update c e with ⟨_ | _, s'⟩ <;> rw [hupdate] at herr <;> cases herr
    simp only [reply, outcome, hupdate]

end Store

end Chronicle
