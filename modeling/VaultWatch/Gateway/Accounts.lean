import VaultWatch.Gateway.Login
import VaultWatch.Gateway.RefreshCalls

/-! The accounts of the in-memory store under the operations of the service:
which operations change them, and how the two maps stay linked. What the calls
have published is here too. -/
namespace VaultWatch.Gateway

open VaultWatch.Gateway.Store VaultWatch.Lib.Run VaultWatch.Lib.Interleave

/-- The user after a login. -/
abbrev Store.User.seenAt (u : User) (lat lon : ℚ) (now : Time) : User :=
  { u with lastLoginLat := some lat, lastLoginLon := some lon, lastLoginAt := some now }

namespace Store.MemoryStore

/-- The part of the store that `UserStore` reads and writes. -/
def accounts (m : MemoryStore) : List User × (String → Option Nat) × (String → Option Nat) :=
  (m.objects, m.users, m.byID)

/-- Both maps point to objects, and an account found by its email is the one
found by its id. -/
structure Linked (m : MemoryStore) : Prop where
  byEmail : ∀ email a, m.users email = some a →
    ∃ u, m.objects[a]? = some u ∧ m.byID u.id = some a
  byID : ∀ id a, m.byID id = some a → ∃ u, m.objects[a]? = some u ∧ u.id = id

theorem Linked.empty : Linked {} where
  byEmail email a found := by cases found
  byID id a found := by cases found

theorem getUserByID_eq {m m' : MemoryStore} (same : m'.accounts = m.accounts) (id : String) :
    m'.getUserByID id = m.getUserByID id := by
  obtain ⟨objects, _, byID⟩ : m'.objects = m.objects ∧ m'.users = m.users ∧ m'.byID = m.byID := by
    simpa [accounts] using same
  simp only [getUserByID, deref, objects, byID]

theorem Linked.of_accounts {m m' : MemoryStore} (linked : m.Linked)
    (same : m'.accounts = m.accounts) : m'.Linked := by
  obtain ⟨objects, users, byID⟩ :
      m'.objects = m.objects ∧ m'.users = m.users ∧ m'.byID = m.byID := by
    simpa [accounts] using same
  constructor
  · rw [objects, users, byID]
    exact linked.byEmail
  · rw [objects, byID]
    exact linked.byID

theorem Linked.createUser {m : MemoryStore} (linked : m.Linked) {id : String}
    (fresh : m.byID id = none) (email passwordHash : String) :
    (createUser id email passwordHash m).2.Linked := by
  have kept : ∀ {a : Nat} {u : User} (v : User), m.objects[a]? = some u →
      (m.objects ++ [v])[a]? = some u := by
    intro a u v found
    rw [List.getElem?_append_left (List.getElem?_eq_some_iff.mp found).1]
    exact found
  constructor
  · intro email' a found
    by_cases same : email' = email
    · subst same
      obtain rfl : m.objects.length = a := by simpa [MemoryStore.createUser] using found
      exact ⟨_, List.getElem?_concat_length, Function.update_self ..⟩
    · obtain ⟨u, object, link⟩ := linked.byEmail email' a
        (by simpa [MemoryStore.createUser, Function.update_of_ne same] using found)
      have other : u.id ≠ id := by
        intro clash
        rw [clash, fresh] at link
        cases link
      exact ⟨u, kept _ object, (Function.update_of_ne other ..).trans link⟩
  · intro id' a found
    by_cases same : id' = id
    · subst same
      obtain rfl : m.objects.length = a := by simpa [MemoryStore.createUser] using found
      exact ⟨_, List.getElem?_concat_length, rfl⟩
    · obtain ⟨u, object, own⟩ := linked.byID id' a
        (by simpa [MemoryStore.createUser, Function.update_of_ne same] using found)
      exact ⟨u, kept _ object, own⟩

/-- The account that an update of the last login leaves behind `a`. -/
theorem updateLastLogin_object {m : MemoryStore} {id : String} {a b : Nat} {u : User}
    (link : m.byID id = some a) (object : m.objects[b]? = some u) (lat lon : ℚ) (now : Time) :
    (updateLastLogin id lat lon now m).2.objects[b]? = some
      (if a = b then u.seenAt lat lon now else u) := by
  simp only [updateLastLogin, link, List.getElem?_modify, object]
  split <;> rfl

theorem updateLastLogin_maps (id : String) (lat lon : ℚ) (now : Time) (m : MemoryStore) :
    (updateLastLogin id lat lon now m).2.users = m.users ∧
      (updateLastLogin id lat lon now m).2.byID = m.byID := by
  unfold updateLastLogin
  split <;> exact ⟨rfl, rfl⟩

theorem updateLastLogin_tokens (id : String) (lat lon : ℚ) (now : Time) (m : MemoryStore) :
    (updateLastLogin id lat lon now m).2.tokens = m.tokens := by
  unfold updateLastLogin
  split <;> rfl

theorem Linked.updateLastLogin {m : MemoryStore} (linked : m.Linked) (id : String) (lat lon : ℚ)
    (now : Time) : (updateLastLogin id lat lon now m).2.Linked := by
  obtain ⟨users, byID⟩ := updateLastLogin_maps id lat lon now m
  cases link : m.byID id with
  | none =>
    have still : (MemoryStore.updateLastLogin id lat lon now m).2 = m := by
      simp only [MemoryStore.updateLastLogin, link]
    rwa [still]
  | some a =>
    constructor
    · intro email b found
      rw [users] at found
      obtain ⟨u, object, own⟩ := linked.byEmail email b found
      refine ⟨_, updateLastLogin_object link object lat lon now, ?_⟩
      rw [byID]
      split <;> exact own
    · intro id' b found
      rw [byID] at found
      obtain ⟨u, object, own⟩ := linked.byID id' b found
      refine ⟨_, updateLastLogin_object link object lat lon now, ?_⟩
      split <;> exact own

theorem getUserByID_ok {m : MemoryStore} {id : String} {u : User} :
    m.getUserByID id = .ok u ↔ ∃ a, m.byID id = some a ∧ m.objects[a]? = some u := by
  unfold getUserByID deref
  cases link : m.byID id with
  | none => exact ⟨nofun, fun ⟨_, missing, _⟩ => by cases missing⟩
  | some a =>
    rw [Option.bind_some]
    cases object : m.objects[a]? with
    | none =>
      refine ⟨nofun, fun ⟨b, same, found⟩ => ?_⟩
      cases same
      rw [object] at found
      cases found
    | some v =>
      constructor
      · intro found
        cases found
        exact ⟨a, rfl, object⟩
      · rintro ⟨b, same, found⟩
        cases same
        rw [object] at found
        cases found
        rfl

theorem Linked.own_id {m : MemoryStore} (linked : m.Linked) {id : String} {u : User}
    (found : m.getUserByID id = .ok u) : u.id = id := by
  obtain ⟨a, link, object⟩ := getUserByID_ok.mp found
  obtain ⟨v, same, own⟩ := linked.byID id a link
  rw [object] at same
  cases same
  exact own

/-- No account is lost when one is created, or when one logs in. -/
theorem createUser_users {m : MemoryStore} {id : String} (fresh : m.byID id = none)
    (email passwordHash : String) {id' : String} {u : User} (found : m.getUserByID id' = .ok u) :
    (createUser id email passwordHash m).2.getUserByID id' = .ok u := by
  obtain ⟨a, link, object⟩ := getUserByID_ok.mp found
  have other : id' ≠ id := by
    rintro rfl
    rw [fresh] at link
    cases link
  refine getUserByID_ok.mpr ⟨a, (Function.update_of_ne other ..).trans link, ?_⟩
  have inside := (List.getElem?_eq_some_iff.mp object).1
  exact (List.getElem?_append_left inside).trans object

theorem updateLastLogin_users (id : String) (lat lon : ℚ) (now : Time) {m : MemoryStore}
    {id' : String} {u : User} (found : m.getUserByID id' = .ok u) :
    ∃ u', (updateLastLogin id lat lon now m).2.getUserByID id' = .ok u' := by
  obtain ⟨b, link', object⟩ := getUserByID_ok.mp found
  cases link : m.byID id with
  | none =>
    refine ⟨u, getUserByID_ok.mpr ⟨b, ?_, ?_⟩⟩
    · simpa only [updateLastLogin, link] using link'
    · simpa only [updateLastLogin, link] using object
  | some a =>
    refine ⟨_, getUserByID_ok.mpr ⟨b, ?_, updateLastLogin_object link object lat lon now⟩⟩
    rw [(updateLastLogin_maps id lat lon now m).2]
    exact link'

/-- The account `u` is the one of the email, and of its id. -/
def Holds (m : MemoryStore) (email : String) (u : User) : Prop :=
  ∃ a, m.users email = some a ∧ m.objects[a]? = some u ∧ m.byID u.id = some a

theorem Holds.found {m : MemoryStore} {email : String} {u : User} (holds : m.Holds email u) :
    m.getUserByEmail email = .ok u := by
  obtain ⟨a, name, object, _⟩ := holds
  simp only [getUserByEmail, deref, name, Option.bind_some, object, orNotFound]

theorem Linked.holds {m : MemoryStore} (linked : m.Linked) {email : String} {u : User}
    (found : m.getUserByEmail email = .ok u) : m.Holds email u := by
  unfold getUserByEmail at found
  cases name : m.users email with
  | none =>
    rw [name] at found
    cases found
  | some a =>
    obtain ⟨v, object, link⟩ := linked.byEmail email a name
    rw [name, deref, Option.bind_some, object] at found
    cases found
    exact ⟨a, name, object, link⟩

theorem Holds.known {m : MemoryStore} {email : String} {u : User} (holds : m.Holds email u) :
    m.getUserByID u.id = .ok u := by
  obtain ⟨a, _, object, link⟩ := holds
  exact getUserByID_ok.mpr ⟨a, link, object⟩

theorem Holds.of_accounts {m m' : MemoryStore} {email : String} {u : User}
    (holds : m.Holds email u) (same : m'.accounts = m.accounts) : m'.Holds email u := by
  obtain ⟨objects, users, byID⟩ :
      m'.objects = m.objects ∧ m'.users = m.users ∧ m'.byID = m.byID := by
    simpa [accounts] using same
  unfold Holds
  rw [objects, users, byID]
  exact holds

theorem Holds.updateLastLogin {m : MemoryStore} {email : String} {u : User}
    (holds : m.Holds email u) (lat lon : ℚ) (now : Time) :
    (updateLastLogin u.id lat lon now m).2.Holds email (u.seenAt lat lon now) := by
  obtain ⟨a, name, object, link⟩ := holds
  obtain ⟨users, byID⟩ := updateLastLogin_maps u.id lat lon now m
  refine ⟨a, by rw [users]; exact name, ?_, by rw [byID]; exact link⟩
  rw [updateLastLogin_object link object, if_pos rfl]

end Store.MemoryStore

/-! ## Which operations change accounts -/

theorem reading_ok {α : Type} {f : Option Fault} {answer : Except StoreError α} {a : α}
    (read : reading f answer = .ok a) : answer = .ok a := by
  unfold reading at read
  split at read
  · exact read
  · cases read

/-- A write that succeeded took effect. -/
theorem writing_ok {σ α : Type} {f : Option Fault} {method : σ → Except StoreError α × σ}
    {g : Shared σ} {a : α} (written : (writing f method g).1 = .ok a) :
    (method g.store).1 = .ok a ∧ (writing f method g).2.store = (method g.store).2 := by
  unfold writing at written ⊢
  split at written
  · exact ⟨written, rfl⟩
  · cases written
  · cases written

/-- The operation leaves every account as it is. -/
def AuthOp.Quiet : AuthOp → Prop
  | .createUser _ _ | .updateLastLogin _ _ _ _ => False
  | _ => True

theorem handle_accounts (c : Choice) (o : Op) (g : Shared MemoryStore) :
    (handle memoryStore c o g).2.store.accounts = g.store.accounts := by
  cases o with
  | markUsed hash now =>
    rcases writing_cases c.fault (memoryStore.markUsed hash now) g with same | wrote
    · exact congrArg (·.store.accounts) same
    · refine (congrArg MemoryStore.accounts wrote).trans ?_
      simp only [memoryStore, MemoryStore.markUsed]
      split <;> rfl
  | save rt =>
    rcases writing_cases c.fault (memoryStore.save rt) g with same | wrote
    · exact congrArg (·.store.accounts) same
    · exact (congrArg MemoryStore.accounts wrote).trans rfl
  | revokeFamily familyID =>
    rcases writing_cases c.fault (memoryStore.revokeFamily familyID) g with same | wrote
    · exact congrArg (·.store.accounts) same
    · exact (congrArg MemoryStore.accounts wrote).trans rfl
  | _ => rfl

/-- A quiet operation leaves the accounts as they are. -/
theorem handleAuth_accounts {o : AuthOp} (quiet : o.Quiet) (c : AuthChoice)
    (g : AuthShared MemoryStore) :
    (handleAuth memoryStore c o g).2.store.accounts = g.store.accounts := by
  cases o with
  | base o => exact handle_accounts c.toChoice o g.toShared
  | createUser email passwordHash => exact quiet.elim
  | updateLastLogin userID lat lon now => exact quiet.elim
  | recordFailure counter key => cases counter <;> rfl
  | reset counter key => cases counter <;> rfl
  | _ => rfl

section
variable {ι : Type}

/-- A stretch of quiet operations leaves the accounts as they are. -/
theorem foldl_accounts {es : List (Entry ι AuthChoice AuthOp AuthRes)}
    (quiet : ∀ e ∈ es, e.done.1.Quiet) (g : AuthShared MemoryStore) :
    (es.foldl (Entry.apply (handleAuth memoryStore)) g).store.accounts = g.store.accounts := by
  induction es generalizing g with
  | nil => rfl
  | cons e es ih =>
    exact (ih (fun d mem => quiet d (.tail _ mem)) _).trans
      (handleAuth_accounts (quiet e (.head _)) e.choice g)

theorem foldl_holds {es : List (Entry ι AuthChoice AuthOp AuthRes)}
    (quiet : ∀ e ∈ es, e.done.1.Quiet) {g : AuthShared MemoryStore} {email : String} {u : User}
    (holds : g.store.Holds email u) :
    (es.foldl (Entry.apply (handleAuth memoryStore)) g).store.Holds email u :=
  holds.of_accounts (foldl_accounts quiet g)

end

/-! ## What is published -/

section
variable {σ ι : Type} {S : AuthStore σ} [DecidableEq ι]

/-- What a thread has published is published. -/
theorem published_run {s : LoginService} {call : ι → Call} {g : AuthShared σ}
    {schedule : List (ι × AuthChoice)} {i : ι} {event : SecurityEvent}
    (mem : (⟨.base (.publish event), ()⟩ : Prog.Done AuthOp AuthRes) ∈
      (((calling s call g).run (handleAuth S) schedule).threads i).done) :
    event ∈ ((calling s call g).run (handleAuth S) schedule).shared.published := by
  suffices kept : ∀ i event,
      (⟨.base (.publish event), ()⟩ : Prog.Done AuthOp AuthRes) ∈
        (((calling s call g).run (handleAuth S) schedule).threads i).done →
      event ∈ ((calling s call g).run (handleAuth S) schedule).shared.published from
    kept i event mem
  refine invariant (I := fun p : AuthPool σ ι => ∀ i event,
    (⟨.base (.publish event), ()⟩ : Prog.Done AuthOp AuthRes) ∈ (p.threads i).done →
      event ∈ p.shared.published) ?_ schedule (fun i event mem => by cases mem)
  intro p l kept i event mem
  rcases p.step_cases (handleAuth S) l.1 l.2 with still | ⟨o, k, todo, shared, threads⟩
  · rw [still] at mem ⊢
    exact kept i event mem
  · rw [threads] at mem
    rw [shared, handleAuth_published]
    rcases Pool.mem_done_update.mp mem with old | ⟨_, new⟩
    · exact List.mem_append_left _ (kept i event old)
    · cases new
      exact List.mem_append_right _ (.head _)

end

end VaultWatch.Gateway
