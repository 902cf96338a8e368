import Chronicle.Proofs.Account.Indexes
import Chronicle.Proofs.Store.Holders

/-! No two live accounts have the same e-mail address in lower case. -/

namespace Chronicle.Account

open Store (Call Request Run)

variable {γ : Type} [Clock γ] {t : MemoryTables} {id : Identifier} {a : Account} {index value : String}

lemma carries_email_iff : Entity.Carries a "accounts_by_email" value ↔ Text.lowercase a.email = value := by
  cases hu : a.update <;> simp [Entity.Carries, Entity.attributes, attributes, Attribute.Matches, hu]

def EmailTaken (t : MemoryTables) (id : Identifier) (email : String) : Prop :=
  ∃ id', id' ≠ id ∧ ∃ a, collection.current t id' = .ok (some a) ∧ Text.lowercase a.email = Text.lowercase email

lemma refuseTaken_eq (t : MemoryTables) (id : Identifier) (a : Account) :
    collection.refuseTaken t id (Entity.attributes a) =
      match collection.holderBut? t "accounts_by_email" (Text.lowercase a.email) (some id) with
      | .error err => .error err
      | .ok (some _) => .error (.valueTaken "accounts_by_email" (Text.lowercase a.email))
      | .ok none => .ok () := by
  have hattrs : Entity.attributes a = ⟨"accounts_by_email", Text.lowercase a.email, .entity, true⟩ ::
      ⟨"accounts_by_state", a.state, .entity, false⟩ ::
        a.update.toList.map fun u => ⟨"accounts_by_day", u.dayText, .version, false⟩ := rfl
  rw [hattrs, Collection.refuseTaken_cons, if_pos rfl, Collection.refuseTaken_of_not_unique (by simp)]
  dsimp only
  cases collection.holderBut? t "accounts_by_email" (Text.lowercase a.email) (some id) with
  | error err => rfl
  | ok o => cases o <;> rfl

lemma refuseTaken_cases (hread : collection.RowsRead t) (hrows : collection.EntityRows "accounts_by_email" t)
    (id : Identifier) (a : Account) :
    collection.refuseTaken t id (Entity.attributes a) =
        .error (.valueTaken "accounts_by_email" (Text.lowercase a.email)) ∧ EmailTaken t id a.email ∨
      collection.refuseTaken t id (Entity.attributes a) = .ok () ∧ ¬ EmailTaken t id a.email := by
  obtain ⟨o, ho, hiff⟩ := hread.holderBut?_isSome "accounts_by_email" (Text.lowercase a.email) (some id)
  have htaken : o.isSome ↔ EmailTaken t id a.email := by
    rw [hiff]
    constructor
    · rintro ⟨ref, _, hne, e, hcurrent, hcarries⟩
      exact ⟨ref.entity, by simpa using hne, e, hcurrent, carries_email_iff.1 hcarries⟩
    · rintro ⟨id', hne, e, hcurrent, hemail⟩
      have hrow := (hrows (Text.lowercase a.email) id' _).2
        ⟨rfl, e, hcurrent, hasAttribute_entity_iff.2 (.inl ⟨rfl, hemail.symm⟩)⟩
      exact ⟨⟨id', id'⟩, MemoryTables.mem_refsAfter.2 ⟨none, hrow⟩, by simpa using hne, e, hcurrent,
        carries_email_iff.2 hemail⟩
  rw [refuseTaken_eq, ho]
  cases o with
  | none => exact .inr ⟨rfl, by simpa using htaken⟩
  | some e => exact .inl ⟨rfl, by simpa using htaken⟩

def EmailsDiffer (t : MemoryTables) : Prop :=
  ∀ id id' a a', collection.current t id = .ok (some a) → collection.current t id' = .ok (some a') →
    Text.lowercase a.email = Text.lowercase a'.email → id = id'

lemma EmailsDiffer.of_frame {t' : MemoryTables} (h : EmailsDiffer t)
    (hframe : ∀ n, id ≠ n → collection.current t' n = collection.current t n)
    (hown : ∀ a, collection.current t' id = .ok (some a) → ¬ EmailTaken t id a.email) : EmailsDiffer t' := by
  intro m n a a' ha ha' hemail
  by_cases hm : id = m <;> by_cases hn : id = n
  · exact hm.symm.trans hn
  · subst hm
    rw [hframe n hn] at ha'
    exact absurd ⟨n, fun h => hn h.symm, a', ha', hemail.symm⟩ (hown a ha)
  · subst hn
    rw [hframe m hm] at ha
    exact absurd ⟨m, fun h => hm h.symm, a, ha, hemail⟩ (hown a' ha')
  · rw [hframe m hm] at ha
    rw [hframe n hn] at ha'
    exact h m n a a' ha ha' hemail

lemma emailsDiffer {start s : Store MemoryTables γ} {log : List (Call Account MemoryTables γ)}
    (h : Run collection start log s) (hs : start.Opened .empty) (ho : Store.Orderly collection log)
    (hc : Store.AllComplete collection log) (hf : Store.EntitiesFit log) : EmailsDiffer s.tables := by
  induction h with
  | start =>
    rw [hs.tables_eq]
    intro _ _ _ _ hcurrent
    cases hcurrent
  | @call log s h clock request ih =>
    obtain ⟨hfx, hf⟩ := List.forall_mem_cons.1 hf
    have hc' := (List.forall_mem_cons.1 hc).2
    have hdiffer := ih ho.of_cons hc' hf
    have hrefuse := refuseTaken_cases (h.rowsRead hs hf) (entityRows h hs ho.of_cons hf hc' (by simp))
    have hfree : ∀ id (a : Account), collection.refuseTaken s.tables id (Entity.attributes a) = .ok () →
        ¬ EmailTaken s.tables id a.email := by
      intro id a hok
      rcases hrefuse id a with ⟨herr, _⟩ | ⟨_, hnot⟩
      · rw [hok] at herr
        cases herr
      · exact hnot
    generalize ht : (Call.after collection ⟨{ s with clock }, request⟩).tables = t
    cases ht ▸ h.settled hs ho hc hf with
    | idle => exact hdiffer
    | @created e id stamps hreq _ habsent hok =>
      have hfit : LawfulEntity.Fits (Entity.stamp e id id) := LawfulEntity.fits_stamp _ _ (hfx _ (by rw [hreq]; rfl))
      refine hdiffer.of_frame (fun n hn => Collection.current_created_of_ne hn) fun a ha => ?_
      rw [Collection.current_created_self hfit habsent] at ha
      cases ha
      exact hfree id _ hok
    | @updated e id u previous stamps hreq _ _ _ hgreatest hok =>
      have hfit : LawfulEntity.Fits (Entity.withUpdate e u) :=
        LawfulEntity.fits_withUpdate _ (hfx _ (by rw [hreq]; rfl))
      refine hdiffer.of_frame (fun n hn => Collection.current_updated_of_ne hn) fun a ha => ?_
      rw [Collection.current_updated_self hfit (hgreatest id)] at ha
      cases ha
      exact hfree id _ hok
    | deleted _ _ _ =>
      refine hdiffer.of_frame (fun n hn => Collection.current_deleted_of_ne hn) fun a ha => ?_
      rw [Collection.current_deleted_self] at ha
      cases ha

lemma emailTaken_of_reply {x : Call Account MemoryTables γ}
    (h : x.reply collection = .refused (.valueTaken index value)) :
    ∃ id a, Store.PastAllocation collection x.before x.request id a ∧ index = "accounts_by_email" ∧
      value = Text.lowercase a.email ∧ EmailTaken x.before.tables id a.email := by
  obtain ⟨id, a, hpast, htaken⟩ := x.refuseTaken_of_reply h
  obtain ⟨attr, hattr, hunique, ⟨rfl, rfl⟩, id', hne, a', hcurrent, hcarries⟩ :=
    Collection.holder_of_refuseTaken htaken
  obtain rfl : attr = ⟨"accounts_by_email", Text.lowercase a.email, .entity, true⟩ := by
    rcases List.mem_cons.1 hattr with rfl | hrest
    · rfl
    · rcases List.mem_cons.1 hrest with rfl | hday
      · cases hunique
      · obtain ⟨u, _, rfl⟩ := List.mem_map.1 hday
        cases hunique
  exact ⟨id, a, hpast, rfl, rfl, id', hne, a', hcurrent, carries_email_iff.1 hcarries⟩

theorem emails_unique {start s : Store MemoryTables γ} {log : List (Call Account MemoryTables γ)}
    (h : Run collection start log s) (hs : start.Opened .empty) (ho : Store.Orderly collection log)
    (hc : Store.AllComplete collection log) (hf : Store.EntitiesFit log) :
    (∀ id id' a a', collection.current s.tables id = .ok (some a) → collection.current s.tables id' = .ok (some a') →
      Text.lowercase a.email = Text.lowercase a'.email → id = id') ∧
    (∀ (clock : γ) request id a, Store.PastAllocation collection { s with clock } request id a →
      (Call.reply collection ⟨{ s with clock }, request⟩ =
          .refused (.valueTaken "accounts_by_email" (Text.lowercase a.email)) ↔
        ∃ id', id' ≠ id ∧ ∃ a', collection.current s.tables id' = .ok (some a') ∧
          Text.lowercase a'.email = Text.lowercase a.email)) ∧
    ∀ (x : Call Account MemoryTables γ) index value, x.reply collection = .refused (.valueTaken index value) →
      ∃ id a, Store.PastAllocation collection x.before x.request id a ∧ index = "accounts_by_email" ∧
        value = Text.lowercase a.email ∧ ∃ id', id' ≠ id ∧ ∃ a',
          collection.current x.before.tables id' = .ok (some a') ∧
            Text.lowercase a'.email = Text.lowercase a.email := by
  refine ⟨emailsDiffer h hs ho hc hf, fun clock request id a hpast => ⟨fun hreply => ?_, fun htaken => ?_⟩,
    fun x index value hreply => emailTaken_of_reply hreply⟩
  · obtain ⟨id', a', hpast', _, hvalue, htaken⟩ := emailTaken_of_reply hreply
    obtain ⟨rfl, rfl⟩ := hpast.unique hpast'
    exact htaken
  · have hread := h.rowsRead hs hf
    rcases refuseTaken_cases hread (entityRows h hs ho hf hc (by simp)) id a with ⟨hrefuse, _⟩ | ⟨_, hnot⟩
    · exact Call.reply_of_refuseTaken hread hpast hrefuse
    · exact absurd htaken hnot

def twoAccounts : List (SteppingClock × Request Account) :=
  [(⟨8, 0⟩, .update ⟨some ⟨1835269⟩, none, "Cy@x", "on"⟩), (⟨7, 0⟩, .create (.new "Bo@x" "on")),
    (⟨7, 0⟩, .create (.new "Ann@x" "on"))]

theorem emails_unique_third_account :
    let log := (Store.play collection vacant twoAccounts).1
    let s := (Store.play collection vacant twoAccounts).2
    Store.Orderly collection log ∧ Store.AllComplete collection log ∧ Store.EntitiesFit log ∧
      Call.reply collection ⟨s, .create (.new "aNN@X" "off")⟩ = .refused (.valueTaken "accounts_by_email" "ann@x") ∧
      (Call.reply collection ⟨s, .create (.new "bO@X" "off")⟩).report?.isSome := by
  have ho : Store.Orderly collection (Store.play collection vacant twoAccounts).1 := by
    decide +kernel
  have hc : Store.AllComplete collection (Store.play collection vacant twoAccounts).1 := by
    decide +kernel
  have hf : Store.EntitiesFit (Store.play collection vacant twoAccounts).1 := by
    decide +kernel
  refine ⟨ho, hc, hf, ?_, by decide +kernel⟩
  have hlower : Text.lowercase "aNN@X" = "ann@x" := by decide +kernel
  have hchoose : ((Store.play collection vacant twoAccounts).2.chooseId collection (.new "aNN@X" "off")).1 =
      .ok ⟨2097413⟩ := by decide +kernel
  have hcurrent : collection.current (Store.play collection vacant twoAccounts).2.tables ⟨1835013⟩ =
      .ok (some ⟨some ⟨1835013⟩, some ⟨1835013⟩, "Ann@x", "on"⟩) := by decide +kernel
  rw [← hlower]
  exact ((emails_unique (Store.run_play _ _ _) opened_vacant ho hc hf).2.1 _ _ _ _ (.create hchoose)).2
    ⟨⟨1835013⟩, by decide, _, hcurrent, by decide +kernel⟩

end Chronicle.Account
