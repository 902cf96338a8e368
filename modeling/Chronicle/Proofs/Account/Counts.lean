import Mathlib.Algebra.BigOperators.Finprod
import Chronicle.Entity.Account
import Chronicle.Proofs.Account.Indexes
import Chronicle.Proofs.Calendar.Days
import Chronicle.Proofs.Store.Ledger

/-! The counters tell for each day how many accounts were created, over all and in each state. -/

namespace Chronicle.Account

open Store (Call Run AllComplete creations gains)

variable {σ γ : Type} [Tables σ] [Clock γ]

def countOn (accounts : List Account) (p : Account → Bool) (day : Int) : Nat :=
  accounts.countP fun a => p a && a.id.any fun x => x.dayNumber = day

def createdOn (log : List (Call Account σ γ)) (day : Int) : Nat :=
  countOn (creations collection log) (fun _ => true) day

def createdIn (log : List (Call Account σ γ)) (state : String) (day : Int) : Nat :=
  countOn (creations collection log) (fun a => a.state == state) day

def Tallies (t : σ) (counter key : String) (n : Int → Nat) : Prop :=
  ∃ rows : List (Int64 × UInt64), rows.Pairwise (fun r r' => r.1 < r'.1) ∧
    (∀ bucket count, (bucket, count) ∈ rows ↔
      ∃ day, bucket.toInt = Calendar.codeOf day ∧ count.toNat = n day ∧ 0 < n day) ∧
    ∀ after limit, limit ≠ 0 →
      collection.counts t counter key after limit = .ok ((rows.filter fun r => after.all (· < r.1)).take limit)

structure CountsExact (t : σ) (log : List (Call Account σ γ)) : Prop where
  all : Tallies t "accounts_per_day" "all" (createdOn log)
  byState : ∀ state, Tallies t "accounts_per_day_by_state" state (createdIn log state)
  sum : ∀ day, createdOn log day = ∑ᶠ state, createdIn log state day
  kept : ∀ x ∈ log, x.creation? collection = none → ∀ counter key after limit,
    collection.counts (x.after collection).tables counter key after limit =
      collection.counts x.before.tables counter key after limit

section

variable {accounts : List Account} {p : Account → Bool} {day : Int} {counter key : String} {bucket : Int64}

lemma countOn_eq_finsum (accounts : List Account) (day : Int) :
    countOn accounts (fun _ => true) day = ∑ᶠ state, countOn accounts (fun a => a.state == state) day := by
  have hsum (states : Finset String) (h : ∀ a ∈ accounts, a.state ∈ states) :
      countOn accounts (fun _ => true) day = ∑ state ∈ states, countOn accounts (fun a => a.state == state) day := by
    induction accounts with
    | nil => simp [countOn]
    | cons a accounts ih =>
      obtain ⟨ha, haccounts⟩ := List.forall_mem_cons.1 h
      simp only [countOn, List.countP_cons, Finset.sum_add_distrib] at ih ⊢
      rw [ih haccounts]
      by_cases hday : a.id.any (fun x => x.dayNumber = day) = true <;> simp [hday, ha]
  have hstates : ∀ a ∈ accounts, a.state ∈ (accounts.map state).toFinset := fun a ha =>
    List.mem_toFinset.2 (List.mem_map_of_mem ha)
  rw [hsum _ hstates, finsum_eq_finsetSum_of_support_subset]
  intro s hs
  obtain ⟨a, ha, hcount⟩ := List.countP_pos_iff.1 (Nat.pos_of_ne_zero hs)
  simp only [Bool.and_eq_true, beq_iff_eq] at hcount
  exact hcount.1 ▸ Finset.mem_coe.2 (hstates a ha)

lemma mem_gains {a : Account} {inc : Increment} (h : inc ∈ gains a) :
    inc.amount = 1 ∧ ∃ x : Identifier, inc.bucket = Int64.ofInt x.dayCode := by
  obtain ⟨x, _, hinc⟩ := List.mem_flatMap.1 h
  rcases List.mem_cons.1 hinc with rfl | hinc
  · exact ⟨rfl, x, rfl⟩
  · obtain rfl := List.mem_singleton.1 hinc
    exact ⟨rfl, x, rfl⟩

def CountsUnder (counter key : String) (p : Account → Bool) : Prop :=
  ∀ a bucket, (gains a).countP (fun inc => inc.bucketKey = ⟨counter, key, bucket⟩) =
    if p a && a.id.any (fun x => Int64.ofInt x.dayCode = bucket) then 1 else 0

lemma countsUnder_all : CountsUnder "accounts_per_day" "all" fun _ => true := by
  intro a bucket
  cases hid : a.id with
  | none => simp [gains, Entity.id, hid]
  | some x => simp [gains, Entity.id, hid, Entity.increments, increments, Increment.bucketKey, List.countP_cons]

lemma countsUnder_state (state : String) :
    CountsUnder "accounts_per_day_by_state" state fun a => a.state == state := by
  intro a bucket
  cases hid : a.id with
  | none => simp [gains, Entity.id, hid]
  | some x => simp [gains, Entity.id, hid, Entity.increments, increments, Increment.bucketKey, List.countP_cons]

lemma CountsUnder.countP_eq (h : CountsUnder counter key p) (accounts : List Account)
    (hbucket : bucket.toInt = Calendar.codeOf day) :
    (accounts.flatMap gains).countP (fun inc => inc.bucketKey = ⟨counter, key, bucket⟩) = countOn accounts p day := by
  have hday (x : Identifier) : Int64.ofInt x.dayCode = bucket ↔ x.dayNumber = day := by
    rw [← Int64.toInt_inj, x.toInt_dayCode, hbucket, Calendar.codeOf_injective.eq_iff]
  induction accounts with
  | nil => rfl
  | cons a accounts ih =>
    rw [List.flatMap_cons, List.countP_append, ih, h a bucket, countOn, countOn, List.countP_cons, Nat.add_comm]
    simp only [hday]

variable {τ : Type} {counters : σ → τ} {Agree : τ → MemoryTables → Prop} {t : σ}

lemma counts_eq (t : σ) (counter key : String) (after : Option Int64) {limit : Nat} (hl : limit ≠ 0) :
    collection.counts t counter key after limit = Tables.countsAfter t counter key after limit := by
  simp only [Collection.counts, Source.page, Source.ofCounter, hl, if_false]
  cases Tables.countsAfter t counter key after limit <;> rfl

lemma smallBuckets (accounts : List Account) :
    (MemoryTables.empty.addAll (accounts.flatMap gains)).SmallBuckets := by
  intro k count hget
  obtain ⟨⟨inc, hinc, rfl⟩, _⟩ := MemoryTables.get?_addAll_eq_some_iff.1 hget
  obtain ⟨a, _, hinc⟩ := List.mem_flatMap.1 hinc
  obtain ⟨_, x, hbucket⟩ := mem_gains hinc
  change 0 ≤ inc.bucket.toInt ∧ inc.bucket.toInt < 2 ^ 56
  rw [hbucket, x.toInt_dayCode]
  exact x.dayCode_bounds

lemma get?_counts (hunder : CountsUnder counter key p) (hlength : accounts.length < 2 ^ 64) {count : UInt64} :
    (MemoryTables.empty.addAll (accounts.flatMap gains)).counters.get? ⟨counter, key, bucket⟩ = some count ↔
      ∃ day, bucket.toInt = Calendar.codeOf day ∧ count.toNat = countOn accounts p day ∧ 0 < countOn accounts p day := by
  have hones : ∀ inc ∈ accounts.flatMap gains, inc.amount = 1 := by
    intro inc hinc
    obtain ⟨a, _, hinc⟩ := List.mem_flatMap.1 hinc
    exact (mem_gains hinc).1
  have hcount {day : Int} (hbucket : bucket.toInt = Calendar.codeOf day) :
      (Saturating.uint64 (countOn accounts p day)).toNat = countOn accounts p day := by
    have hle : countOn accounts p day ≤ accounts.length := List.countP_le_length
    rw [Saturating.toNat_uint64, UInt64.size]
    omega
  rw [MemoryTables.get?_addAll_eq_some_iff, MemoryTables.total_eq_countP hones]
  constructor
  · rintro ⟨⟨inc, hinc, hkey⟩, rfl⟩
    -- whatever was added to the bucket tells the day
    obtain ⟨a, _, hgain⟩ := List.mem_flatMap.1 hinc
    obtain ⟨_, x, hx⟩ := mem_gains hgain
    have hbucket : bucket.toInt = Calendar.codeOf x.dayNumber := by
      rw [← x.toInt_dayCode, ← hx]
      exact congrArg Int64.toInt (NamedKey.mk.inj hkey).2.2.symm
    rw [hunder.countP_eq accounts hbucket]
    refine ⟨x.dayNumber, hbucket, hcount hbucket, ?_⟩
    rw [← hunder.countP_eq accounts hbucket]
    exact List.countP_pos_iff.2 ⟨inc, hinc, by simpa using hkey⟩
  · rintro ⟨day, hbucket, heq, hpos⟩
    rw [hunder.countP_eq accounts hbucket]
    rw [← hunder.countP_eq accounts hbucket] at hpos
    obtain ⟨inc, hinc, hkey⟩ := List.countP_pos_iff.1 hpos
    exact ⟨⟨inc, hinc, by simpa using hkey⟩, UInt64.toNat_inj.1 ((hcount hbucket).trans heq.symm)⟩

lemma tallies (h : KeepsCounts counters Agree)
    (hagree : Agree (counters t) (MemoryTables.empty.addAll (accounts.flatMap gains)))
    (hlength : accounts.length < 2 ^ 64)
    (hunder : CountsUnder counter key p) : Tallies t counter key (countOn accounts p) := by
  have hlists := MemoryTables.lists_ofCounter (MemoryTables.empty.addAll (accounts.flatMap gains)) counter key
  refine ⟨_, hlists.ascending, fun bucket count => ?_, fun after limit hl => ?_⟩
  · rw [MemoryTables.mem_countsAfter, get?_counts hunder hlength]
  · rw [counts_eq t counter key after hl, h.read hagree (smallBuckets accounts)]
    refine (hlists.fetch_eq after limit).trans ?_
    congr 2
    refine List.filter_congr fun r _ => ?_
    cases after <;> simp [Grows, Cursor.word, Source.ofCounter]

end

lemma countsExact {τ : Type} {counters : σ → τ} {Agree : τ → MemoryTables → Prop}
    (h : KeepsCounts counters Agree) {start s : Store σ γ} {log : List (Call Account σ γ)}
    (hrun : Run collection start log s) (hstart : Agree (counters start.tables) .empty)
    (hcomplete : AllComplete collection log) (hlength : (creations collection log).length < 2 ^ 64) :
    CountsExact s.tables log := by
  have hagree := hrun.counted h hstart hcomplete
  have htallies {counter key : String} {p : Account → Bool} (hunder : CountsUnder counter key p) :
      Tallies s.tables counter key (countOn (creations collection log) p) := by
    have hreversed := tallies h hagree (by rwa [List.length_reverse]) hunder
    have hcount : countOn (creations collection log).reverse p = countOn (creations collection log) p :=
      funext fun day => List.countP_reverse
    rwa [hcount] at hreversed
  refine ⟨htallies countsUnder_all, fun state => htallies (countsUnder_state state),
    countOn_eq_finsum (creations collection log), fun x _ hx counter key after limit => ?_⟩
  have hcounters := (Call.step collection x).counters_of_no_creation h hx
  have hread := h.read_congr hcounters counter key after limit
  simp only [Collection.counts, Source.page, Source.ofCounter, hread]

theorem counts_exact :
    (∀ {start s : Store MemoryTables γ} {log : List (Call Account MemoryTables γ)}, Run collection start log s →
      start.tables = .empty → AllComplete collection log → (creations collection log).length < 2 ^ 64 →
        CountsExact s.tables log) ∧
    ∀ {start s : Store KeyedTables γ} {log : List (Call Account KeyedTables γ)}, Run collection start log s →
      start.tables = .empty → AllComplete collection log → (creations collection log).length < 2 ^ 64 →
        CountsExact s.tables log := by
  refine ⟨fun hrun hs hcomplete hlength => ?_, fun hrun hs hcomplete hlength => ?_⟩
  · exact countsExact MemoryTables.keepsCounts hrun (by rw [hs]) hcomplete hlength
  · refine countsExact KeyedTables.keepsCounts hrun ?_ hcomplete hlength
    rw [hs]
    exact Layout.Represents.empty

def busyRun : List (SteppingClock × Store.Request Account) :=
  [(⟨9, 0⟩, .create ⟨some ⟨1835013⟩, none, "c", "y"⟩), (⟨9, 0⟩, .create ⟨some ⟨1835013⟩, none, "a", "y"⟩),
    (⟨8, 0⟩, .delete ⟨1835013⟩), (⟨8, 0⟩, .update ⟨some ⟨1835013⟩, none, "a", "y"⟩), (⟨7, 0⟩, .create (.new "b" "x")),
    (⟨7, 0⟩, .create (.new "A" "x"))]

def vacantKeyed : Store KeyedTables SteppingClock :=
  ⟨.empty, { Issuer.ofPatience 0 with node := some 5 }, ⟨0, 0⟩, .independent .inOrder⟩

theorem counts_exact_recreation :
    let log := (Store.play collection vacant busyRun).1
    let tables := (Store.play collection vacant busyRun).2.tables
    let keyed := Store.play collection vacantKeyed busyRun
    AllComplete collection log ∧ (creations collection log).length < 2 ^ 64 ∧ CountsExact tables log ∧
      (createdOn log 0, createdIn log "x" 0, createdIn log "y" 0) = (3, 2, 1) ∧
      AllComplete collection keyed.1 ∧ (creations collection keyed.1).length < 2 ^ 64 ∧
      CountsExact keyed.2.tables keyed.1 ∧ createdOn keyed.1 0 = 3 := by
  have hcomplete : AllComplete collection (Store.play collection vacant busyRun).1 := by decide +kernel
  have hlength : (creations collection (Store.play collection vacant busyRun).1).length < 2 ^ 64 := by decide +kernel
  have hcomplete' : AllComplete collection (Store.play collection vacantKeyed busyRun).1 := by decide +kernel
  have hlength' : (creations collection (Store.play collection vacantKeyed busyRun).1).length < 2 ^ 64 := by
    decide +kernel
  exact ⟨hcomplete, hlength, counts_exact.1 (Store.run_play _ _ _) rfl hcomplete hlength, by decide +kernel, hcomplete',
    hlength', counts_exact.2 (Store.run_play _ _ _) rfl hcomplete' hlength', by decide +kernel⟩

end Chronicle.Account
