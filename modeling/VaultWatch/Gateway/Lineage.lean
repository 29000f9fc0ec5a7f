import VaultWatch.Gateway.CredentialStuffing
import VaultWatch.Gateway.SoloCalls

/-! # The lineage of refresh tokens

Calls one after the other over the in-memory store. A family begins with a login
and grows by one token with each exchange, which spends the token before it. -/
namespace VaultWatch.Gateway

open VaultWatch.Gateway.Store VaultWatch.Lib.Run VaultWatch.Lib.Interleave

/-! ## Families -/

/-- The token can be exchanged. -/
def Store.RefreshToken.Live (rt : RefreshToken) : Prop := rt.revoked = false ∧ rt.usedAt = none

/-- What the stored tokens of a family have in common. -/
structure Lineage (m : MemoryStore) : Prop where
  linked : m.Linked
  oneLive : ∀ h h' rt rt', m.tokens h = some rt → m.tokens h' = some rt' →
    rt.familyID = rt'.familyID → rt.Live → rt'.Live → h = h'
  oneUser : ∀ h h' rt rt', m.tokens h = some rt → m.tokens h' = some rt' →
    rt.familyID = rt'.familyID → rt.userID = rt'.userID
  existing : ∀ h rt, m.tokens h = some rt → ∃ u, m.getUserByID rt.userID = .ok u

/-- The family has tokens, and all of them are revoked. -/
def Burnt (familyID : String) (m : MemoryStore) : Prop :=
  (∃ h rt, m.tokens h = some rt ∧ rt.familyID = familyID) ∧
    ∀ h rt, m.tokens h = some rt → rt.familyID = familyID → rt.revoked = true

/-- What a call makes of the store: the lineage is kept, no token is lost or live
again, and a burnt family stays burnt. -/
structure Extends (m m' : MemoryStore) : Prop where
  lineage : Lineage m'
  kept : ∀ h rt, m.tokens h = some rt →
    ∃ rt', m'.tokens h = some rt' ∧ rt'.familyID = rt.familyID ∧ (rt'.Live → rt.Live)
  burnt : ∀ familyID, Burnt familyID m → Burnt familyID m'

theorem Extends.refl {m : MemoryStore} (lineage : Lineage m) : Extends m m where
  lineage := lineage
  kept _ rt stored := ⟨rt, stored, rfl, id⟩
  burnt _ burnt := burnt

theorem Extends.trans {m₁ m₂ m₃ : MemoryStore} (first : Extends m₁ m₂) (second : Extends m₂ m₃) :
    Extends m₁ m₃ where
  lineage := second.lineage
  kept h rt stored := by
    obtain ⟨rt₂, stored₂, family₂, live₂⟩ := first.kept h rt stored
    obtain ⟨rt₃, stored₃, family₃, live₃⟩ := second.kept h rt₂ stored₂
    exact ⟨rt₃, stored₃, family₃.trans family₂, fun live => live₂ (live₃ live)⟩
  burnt familyID burnt := second.burnt familyID (first.burnt familyID burnt)

theorem markUsed_tokens (hash : String) (now : Time) (m : MemoryStore) (h : String) :
    (MemoryStore.markUsed hash now m).2.tokens h =
      (m.tokens h).map fun rt => if h = hash then used now rt else rt := by
  refine (congrFun (memoryStore_tokens.markUsed hash now m) h).trans ?_
  by_cases same : h = hash
  · subst same
    rw [Function.update_self]
    simp only [if_pos]
    rfl
  · rw [Function.update_of_ne same]
    simp only [if_neg same, Option.map_id']

/-- A swept family that has a token is burnt. -/
theorem revokeFamily_burnt {m : MemoryStore} {hash : String} {rt : RefreshToken}
    (stored : m.tokens hash = some rt) :
    Burnt rt.familyID (MemoryStore.revokeFamily rt.familyID m).2 := by
  refine ⟨⟨hash, revokedIn rt.familyID rt, ?_, ?_⟩, fun h swept after family => ?_⟩
  · exact (congrArg (Option.map (revokedIn rt.familyID)) stored :)
  · unfold revokedIn
    split <;> rfl
  · obtain ⟨old, _, rfl⟩ := Option.map_eq_some_iff.mp after
    split
    · rfl
    · rename_i other
      rw [if_neg other] at family
      exact absurd family other

section
variable {m m' : MemoryStore} (lineage : Lineage m)
include lineage

/-- Each token of a store changed, but for what the lineage speaks of. -/
theorem Lineage.map (same : m'.accounts = m.accounts) {f : String → RefreshToken → RefreshToken}
    (tokens : ∀ h, m'.tokens h = (m.tokens h).map (f h))
    (keeps : ∀ h rt, (f h rt).familyID = rt.familyID ∧ (f h rt).userID = rt.userID ∧
      ((f h rt).revoked = false → rt.revoked = false) ∧ ((f h rt).Live → rt.Live)) :
    Extends m m' := by
  have before : ∀ {h rt'}, m'.tokens h = some rt' → ∃ rt, m.tokens h = some rt ∧ f h rt = rt' := by
    intro h rt' stored
    rw [tokens] at stored
    exact Option.map_eq_some_iff.mp stored
  refine ⟨⟨lineage.linked.of_accounts same, ?_, ?_, ?_⟩, ?_, ?_⟩
  · intro h h' rt rt' stored stored' family live live'
    obtain ⟨old, was, rfl⟩ := before stored
    obtain ⟨old', was', rfl⟩ := before stored'
    rw [(keeps h old).1, (keeps h' old').1] at family
    exact lineage.oneLive h h' old old' was was' family ((keeps h old).2.2.2 live)
      ((keeps h' old').2.2.2 live')
  · intro h h' rt rt' stored stored' family
    obtain ⟨old, was, rfl⟩ := before stored
    obtain ⟨old', was', rfl⟩ := before stored'
    rw [(keeps h old).1, (keeps h' old').1] at family
    rw [(keeps h old).2.1, (keeps h' old').2.1]
    exact lineage.oneUser h h' old old' was was' family
  · intro h rt stored
    obtain ⟨old, was, rfl⟩ := before stored
    rw [(keeps h old).2.1]
    obtain ⟨u, found⟩ := lineage.existing h old was
    exact ⟨u, by rw [MemoryStore.getUserByID_eq same]; exact found⟩
  · intro h rt stored
    exact ⟨f h rt, by rw [tokens, stored]; rfl, (keeps h rt).1, (keeps h rt).2.2.2⟩
  · intro familyID ⟨⟨h, rt, stored, family⟩, all⟩
    refine ⟨⟨h, f h rt, by rw [tokens, stored]; rfl, (keeps h rt).1.trans family⟩, ?_⟩
    intro h' rt' stored' family'
    obtain ⟨old, was, rfl⟩ := before stored'
    have revoked := all h' old was ((keeps h' old).1.symm.trans family')
    by_contra unrevoked
    rw [(keeps h' old).2.2.1 (by simpa using unrevoked)] at revoked
    cases revoked

theorem Lineage.markUsed (hash : String) (now : Time) :
    Extends m (MemoryStore.markUsed hash now m).2 := by
  refine lineage.map (f := fun h rt => if h = hash then used now rt else rt) ?_
    (markUsed_tokens hash now m) ?_
  · simp only [MemoryStore.markUsed]
    split <;> rfl
  · intro h rt
    split
    · exact ⟨rfl, rfl, id, fun live => by cases live.2⟩
    · exact ⟨rfl, rfl, id, id⟩

theorem Lineage.revokeFamily (familyID : String) :
    Extends m (MemoryStore.revokeFamily familyID m).2 := by
  refine lineage.map (f := fun _ => revokedIn familyID) rfl (fun h => rfl) fun h rt => ?_
  unfold revokedIn
  split
  · exact ⟨rfl, rfl, nofun, fun live => by cases live.1⟩
  · exact ⟨rfl, rfl, id, id⟩

omit lineage in
/-- A stored token is the saved one or was there before. -/
theorem save_tokens_cases {rt rt' : RefreshToken} {h : String}
    (stored : (MemoryStore.save rt m).2.tokens h = some rt') :
    h = rt.hash ∧ rt' = rt ∨ m.tokens h = some rt' := by
  have updated : Function.update m.tokens rt.hash (some rt) h = some rt' := stored
  by_cases same : h = rt.hash
  · rw [same, Function.update_self] at updated
    cases updated
    exact .inl ⟨same, rfl⟩
  · rw [Function.update_of_ne same] at updated
    exact .inr updated

omit lineage in
theorem save_tokens_kept {rt old : RefreshToken} {h : String} (fresh : m.tokens rt.hash = none)
    (stored : m.tokens h = some old) : (MemoryStore.save rt m).2.tokens h = some old := by
  have other : h ≠ rt.hash := by
    intro same
    rw [same, fresh] at stored
    cases stored
  show Function.update m.tokens rt.hash (some rt) h = some old
  rw [Function.update_of_ne other]
  exact stored

/-- A new token for an existing user, of a new family or of one whose tokens are of
the user and spent, but not all revoked. -/
theorem Lineage.save {rt : RefreshToken} (fresh : m.tokens rt.hash = none)
    (user : ∃ u, m.getUserByID rt.userID = .ok u)
    (family : ∀ h old, m.tokens h = some old → old.familyID = rt.familyID →
      ¬ old.Live ∧ old.userID = rt.userID ∧ ¬ Burnt rt.familyID m) :
    Extends m (MemoryStore.save rt m).2 := by
  refine ⟨⟨lineage.linked.of_accounts rfl, ?_, ?_, ?_⟩, ?_, ?_⟩
  · intro h h' t t' stored stored' same live live'
    rcases save_tokens_cases stored with ⟨rfl, rfl⟩ | old
    · rcases save_tokens_cases stored' with ⟨rfl, rfl⟩ | old'
      · rfl
      · exact absurd live' (family h' t' old' same.symm).1
    · rcases save_tokens_cases stored' with ⟨rfl, rfl⟩ | old'
      · exact absurd live (family h t old same).1
      · exact lineage.oneLive h h' t t' old old' same live live'
  · intro h h' t t' stored stored' same
    rcases save_tokens_cases stored with ⟨rfl, rfl⟩ | old
    · rcases save_tokens_cases stored' with ⟨rfl, rfl⟩ | old'
      · rfl
      · exact (family h' t' old' same.symm).2.1.symm
    · rcases save_tokens_cases stored' with ⟨rfl, rfl⟩ | old'
      · exact (family h t old same).2.1
      · exact lineage.oneUser h h' t t' old old' same
  · intro h t stored
    rcases save_tokens_cases stored with ⟨rfl, rfl⟩ | old
    · exact user
    · exact lineage.existing h t old
  · intro h old stored
    exact ⟨old, save_tokens_kept fresh stored, rfl, id⟩
  · intro familyID burnt
    have ⟨⟨h, old, stored, same⟩, all⟩ := burnt
    refine ⟨⟨h, old, save_tokens_kept fresh stored, same⟩, fun h' t stored' same' => ?_⟩
    rcases save_tokens_cases stored' with ⟨rfl, rfl⟩ | old'
    · -- the family of the new token is not burnt
      subst same'
      exact absurd burnt (family h old stored same).2.2
    · exact all h' t old' same'

/-- Accounts may come and change, as long as none is lost. -/
theorem Lineage.accounts {m' : MemoryStore} (tokens : m'.tokens = m.tokens) (linked : m'.Linked)
    (users : ∀ id u, m.getUserByID id = .ok u → ∃ u', m'.getUserByID id = .ok u') :
    Extends m m' := by
  refine ⟨⟨linked, ?_, ?_, ?_⟩, ?_, ?_⟩
  · rw [tokens]
    exact lineage.oneLive
  · rw [tokens]
    exact lineage.oneUser
  · rw [tokens]
    intro h rt stored
    obtain ⟨u, found⟩ := lineage.existing h rt stored
    exact users _ u found
  · intro h rt stored
    exact ⟨rt, by rw [tokens]; exact stored, rfl, id⟩
  · intro familyID burnt
    unfold Burnt
    rw [tokens]
    exact burnt

end

/-! ## Calls -/

section
variable {s : AuthService} {plain : String} {c : ℕ → Choice} {g : Shared MemoryStore}

/-- Everything a `Refresh` whose operations all succeed can do. -/
inductive Refreshed (s : AuthService) (plain : String) (c : ℕ → Choice) (m : MemoryStore) :
    Except AuthError TokenPair → MemoryStore → Prop
  | refused (e : AuthError) (other : e ≠ .tokenReuse) : Refreshed s plain c m (.error e) m
  | reused (rt : RefreshToken) (stored : m.tokens (s.hashRefreshToken plain) = some rt)
      (spent : ¬ rt.Live) : Refreshed s plain c m (.error .tokenReuse)
        (MemoryStore.revokeFamily rt.familyID m).2
  | marked (rt : RefreshToken) (stored : m.tokens (s.hashRefreshToken plain) = some rt)
      (live : rt.Live) (e : AuthError) (other : e ≠ .tokenReuse) : Refreshed s plain c m (.error e)
        (MemoryStore.markUsed (s.hashRefreshToken plain) (c 2).now m).2
  | rotated (rt : RefreshToken) (stored : m.tokens (s.hashRefreshToken plain) = some rt)
      (live : rt.Live) (inTime : (c 1).now ≤ rt.expiresAt) (user : User)
      (known : (MemoryStore.markUsed (s.hashRefreshToken plain) (c 2).now m).2.getUserByID
        rt.userID = .ok user)
      (next : String) (drawn : (c 6).refreshToken = some next) (pair : TokenPair) :
      Refreshed s plain c m (.ok pair)
        (MemoryStore.save (s.record user.id rt.familyID next (c 7).now)
          (MemoryStore.markUsed (s.hashRefreshToken plain) (c 2).now m).2).2

/-- The exchange of a token that can be exchanged. -/
theorem rotate_refreshed (succeed : ∀ n, (c n).fault = none) {rt : RefreshToken}
    (stored : g.store.tokens (s.hashRefreshToken plain) = some rt) (live : rt.Live)
    (inTime : (c 1).now ≤ rt.expiresAt) :
    let out := (s.rotate (s.hashRefreshToken plain) rt).execute (handle memoryStore)
      (fun n => c (n + 2)) g
    Refreshed s plain c g.store out.1 out.2.store := by
  have present : (memoryStore.markUsed (s.hashRefreshToken plain) (c 2).now g.store).1 =
      .ok () := by
    simp only [memoryStore, MemoryStore.markUsed, stored]
  simp only [AuthService.rotate, Prog.execute_op, handle, writing, succeed, reading, if_true,
    Nat.zero_add, Nat.add_assoc, Nat.reduceAdd, present]
  generalize after : (memoryStore.markUsed (s.hashRefreshToken plain) (c 2).now g.store).2 = m
  have same : (MemoryStore.markUsed (s.hashRefreshToken plain) (c 2).now g.store).2 = m := after
  cases known : memoryStore.getUserByID rt.userID m with
  | error e =>
    subst same
    exact .marked rt stored live (.store e) (by simp)
  | ok user =>
    dsimp only
    by_cases drawn : ∃ next, Draws (fun n => c (n + 5)) next
    · obtain ⟨next, draws⟩ := drawn
      obtain ⟨access, out⟩ := issueTokenPair_drawn memoryStore s user.id user.email
        rt.familyID draws { store := m, published := g.published }
      simp only [writing, succeed] at out
      have issued : (s.issueTokenPair user.id user.email rt.familyID).execute
        (handle memoryStore) (fun n => c (n + 5)) { store := m, published := g.published } =
          (.ok ⟨access, next⟩, { store := (MemoryStore.save
            (s.record user.id rt.familyID next (c 7).now) m).2, published := g.published }) := out
      rw [issued]
      subst same
      exact .rotated rt stored live inTime user known next draws.2 _
    · obtain ⟨e, other, out⟩ := issueTokenPair_undrawn memoryStore s user.id user.email
        rt.familyID (fun n => c (n + 5)) (fun next draws => drawn ⟨next, draws⟩)
        { store := m, published := g.published }
      rw [out]
      subst same
      exact .marked rt stored live e other

theorem refresh_refreshed (succeed : ∀ n, (c n).fault = none) :
    Refreshed s plain c g.store ((s.refresh plain).execute (handle memoryStore) c g).1
      ((s.refresh plain).execute (handle memoryStore) c g).2.store := by
  simp only [AuthService.refresh, Prog.execute_op, handle, reading, succeed, if_true]
  cases stored : g.store.tokens (s.hashRefreshToken plain) with
  | none =>
    have found : memoryStore.get (s.hashRefreshToken plain) g.store = .error .notFound := by
      simp only [memoryStore, MemoryStore.get, stored, orNotFound]
    rw [found]
    exact .refused .invalidRefresh (by simp)
  | some rt =>
    have found : memoryStore.get (s.hashRefreshToken plain) g.store = .ok rt := by
      simp only [memoryStore, MemoryStore.get, stored, orNotFound]
    rw [found]
    dsimp only
    split
    · rename_i spent
      show Refreshed s plain c g.store (.error .tokenReuse)
        (writing (c 1).fault (memoryStore.revokeFamily rt.familyID) g).2.store
      rw [succeed]
      refine .reused rt stored fun live => ?_
      rw [live.1, live.2] at spent
      cases spent
    · rename_i live
      have live : rt.Live := by simpa [Store.RefreshToken.Live] using live
      simp only [Prog.execute_op, handle, Nat.zero_add]
      by_cases expired : rt.expiresAt < (c 1).now
      · rw [if_pos expired]
        exact .refused .invalidRefresh (by simp)
      · rw [if_neg expired]
        exact rotate_refreshed succeed stored live (not_lt.mp expired)

end

theorem Lineage.updateLastLogin {m : MemoryStore} (lineage : Lineage m) (id : String)
    (lat lon : ℚ) (now : Time) : Extends m (MemoryStore.updateLastLogin id lat lon now m).2 :=
  lineage.accounts (MemoryStore.updateLastLogin_tokens id lat lon now m)
    (lineage.linked.updateLastLogin id lat lon now)
    fun _ _ found => MemoryStore.updateLastLogin_users id lat lon now found

theorem Lineage.createUser {m : MemoryStore} (lineage : Lineage m) {id : String}
    (fresh : m.byID id = none) (email passwordHash : String) :
    Extends m (MemoryStore.createUser id email passwordHash m).2 :=
  lineage.accounts rfl (lineage.linked.createUser fresh email passwordHash)
    fun _ u found => ⟨u, MemoryStore.createUser_users fresh email passwordHash found⟩

section
variable {s : LoginService} {req : LoginRequest} {user : User} {c : ℕ → AuthChoice}
  {g : AuthShared MemoryStore}

/-- A login begins a family. -/
theorem enter_extends (lineage : Lineage g.store)
    (found : g.store.getUserByEmail req.email = .ok user) (succeed : ∀ n, (c n).fault = none)
    (newFamily : ∀ h rt, g.store.tokens h = some rt → rt.familyID ≠ (c 2).uuid)
    (newToken : ∀ plain, (c 4).refreshToken = some plain →
      g.store.tokens (s.hashRefreshToken plain) = none) :
    Extends g.store ((s.enter req user).execute (handleAuth memoryStore) c g).2.store := by
  have moved := lineage.updateLastLogin user.id req.lat req.lon (c 0).now
  have holds := (lineage.linked.holds found).updateLastLogin req.lat req.lon (c 0).now
  have tokens := MemoryStore.updateLastLogin_tokens user.id req.lat req.lon (c 0).now g.store
  have own : g.setShared g.toShared = g := rfl
  simp only [LoginService.enter, Prog.execute_op, handleAuth, handle, writing, succeed, own]
  generalize after : memoryStore.updateLastLogin user.id req.lat req.lon (c 0).now g.store = out
  have same : MemoryStore.updateLastLogin user.id req.lat req.lon (c 0).now g.store = out := after
  rw [same] at moved holds tokens
  obtain ⟨updated, m⟩ := out
  cases updated with
  | error e => exact moved
  | ok u =>
    simp only [Prog.execute_op, handleAuth, Prog.execute_map]
    obtain ⟨_, shared⟩ := execute_based memoryStore
      (s.issueTokenPair user.id user.email (c 2).uuid) (fun n => c (n + 3))
      (g.setShared { store := m, published := g.published })
    refine (congrArg (Extends g.store) (congrArg Shared.store shared)).mpr ?_
    by_cases drawn : ∃ plain, Draws (fun n => (c (n + 3)).toChoice) plain
    · obtain ⟨plain, draws⟩ := drawn
      obtain ⟨access, issued⟩ := issueTokenPair_drawn memoryStore s.toAuthService user.id
        user.email (c 2).uuid draws { store := m, published := g.published }
      have saved := congrArg (fun out => out.2.store) issued
      simp only [writing, succeed] at saved
      refine (congrArg (Extends g.store) saved).mpr (moved.trans (moved.lineage.save ?_ ?_ ?_))
      · rw [tokens]
        exact newToken plain draws.2
      · exact ⟨_, holds.known⟩
      · intro h old stored family
        rw [tokens] at stored
        exact absurd family (newFamily h old stored)
    · obtain ⟨e, _, failed⟩ := issueTokenPair_undrawn memoryStore s.toAuthService user.id
        user.email (c 2).uuid (fun n => (c (n + 3)).toChoice)
        (fun plain draws => drawn ⟨plain, draws⟩) { store := m, published := g.published }
      exact (congrArg (Extends g.store) (congrArg (fun out => out.2.store) failed)).mpr moved

/-- The store operations of a call succeed, and the ids, tokens and hashes it draws
are new. -/
structure Fresh (s : AuthService) (m : MemoryStore) (c : ℕ → AuthChoice) : Prop where
  succeed : ∀ n, (c n).fault = none
  newUser : ∀ n, m.byID (c n).uuid = none
  newFamily : ∀ n h rt, m.tokens h = some rt → rt.familyID ≠ (c n).uuid
  newToken : ∀ n plain, (c n).refreshToken = some plain → m.tokens (s.hashRefreshToken plain) = none

theorem login_extends (lineage : Lineage g.store) (fresh : Fresh s.toAuthService g.store c) :
    Extends g.store ((s.login req).execute (handleAuth memoryStore) c g).2.store := by
  simp only [LoginService.login, Prog.execute_op, handleAuth, reading, fresh.succeed, if_true]
  cases found : memoryStore.getUserByEmail req.email g.store with
  | error e =>
    refine (congrArg (Extends g.store) (refuse_execute req _ memoryStore g).2).mpr ?_
    exact .refl lineage
  | ok user =>
    dsimp only
    split
    · obtain ⟨g', accepted, same⟩ := accept_execute memoryStore g
      rw [accepted, ← same]
      rw [← same] at lineage found
      refine enter_extends lineage found (fun n => fresh.succeed _) ?_ ?_
      · rw [same]
        exact fresh.newFamily _
      · rw [same]
        exact fresh.newToken _
    · refine (congrArg (Extends g.store) (refuse_execute req _ memoryStore g).2).mpr ?_
      exact .refl lineage

theorem register_extends (lineage : Lineage g.store) (fresh : Fresh s.toAuthService g.store c)
    (email password : String) :
    Extends g.store ((LoginService.register email password).execute (handleAuth memoryStore) c
      g).2.store := by
  have own : g.setShared g.toShared = g := rfl
  simp only [LoginService.register, Prog.execute_op, handleAuth, reading, fresh.succeed, if_true]
  cases memoryStore.getUserByEmail email g.store with
  | ok user => exact .refl lineage
  | error e =>
    simp only [Prog.execute_op, handleAuth, Nat.zero_add]
    cases (c 1).passwordHash with
    | none => exact .refl lineage
    | some hash =>
      simp only [Prog.execute_op, handleAuth, writing, fresh.succeed]
      exact lineage.createUser (fresh.newUser 2) email hash

theorem refresh_extends {plain : String} {r : Except AuthError TokenPair} {m m' : MemoryStore}
    (lineage : Lineage m) (fresh : Fresh s.toAuthService m c)
    (refreshed : Refreshed s.toAuthService plain (fun n => (c n).toChoice) m r m') :
    Extends m m' := by
  cases refreshed with
  | refused e other => exact .refl lineage
  | reused rt stored spent => exact lineage.revokeFamily rt.familyID
  | marked rt stored live e other => exact lineage.markUsed _ _
  | rotated rt stored live inTime user known next drawn pair =>
    have marked := lineage.markUsed (s.hashRefreshToken plain) (c 2).now
    have tokens := markUsed_tokens (s.hashRefreshToken plain) (c 2).now m
    have own := marked.lineage.linked.own_id known
    refine marked.trans (marked.lineage.save ?_ ⟨user, ?_⟩ ?_)
    · have absent : m.tokens (s.record user.id rt.familyID next (c 7).now).hash = none :=
        fresh.newToken 6 next drawn
      rw [tokens, absent]
      rfl
    · exact (congrArg (MemoryStore.getUserByID · _) own).trans known
    · intro h old' after family
      rw [tokens] at after
      obtain ⟨old, was, rfl⟩ := Option.map_eq_some_iff.mp after
      have family : old.familyID = rt.familyID := by
        split at family <;> exact family
      refine ⟨fun still => ?_, ?_, fun burnt => ?_⟩
      · -- the only token of the family that was live is the one marked
        split at still
        · cases still.2
        · rename_i other
          exact other (lineage.oneLive _ _ _ _ was stored family still live)
      · refine Eq.trans ?_ ((lineage.oneUser _ _ _ _ was stored family).trans own.symm)
        split <;> rfl
      · have present : (MemoryStore.markUsed (s.hashRefreshToken plain) (c 2).now m).2.tokens
            (s.hashRefreshToken plain) = some (used (c 2).now rt) := by
          rw [tokens, stored, Option.map_some, if_pos rfl]
        have revoked := burnt.2 _ _ present rfl
        rw [used, live.1] at revoked
        cases revoked

end

/-! ## Runs of calls one after the other -/

section
variable {s : LoginService} {plain : String} {c : ℕ → AuthChoice} {g : AuthShared MemoryStore}

/-- What a call leaves. -/
abbrev served (s : LoginService) (g : AuthShared MemoryStore) (l : Call × (ℕ → AuthChoice)) :
    AuthShared MemoryStore :=
  (l.1.runAlone memoryStore s l.2 g).2

/-- What a call returns. -/
abbrev replied (s : LoginService) (g : AuthShared MemoryStore) (l : Call × (ℕ → AuthChoice)) :
    Reply :=
  (l.1.runAlone memoryStore s l.2 g).1

theorem refresh_served (plain : String) (fresh : Fresh s.toAuthService g.store c) :
    ∃ r, replied s g (.refresh plain, c) = .refreshed r ∧
      Refreshed s.toAuthService plain (fun n => (c n).toChoice) g.store r
        (served s g (.refresh plain, c)).store := by
  obtain ⟨reply, shared⟩ := Call.refresh_runAlone memoryStore s plain c g
  refine ⟨_, reply, ?_⟩
  rw [served, congrArg Shared.store shared]
  exact refresh_refreshed fun n => fresh.succeed n

/-- Every call keeps the lineage. -/
theorem served_extends (lineage : Lineage g.store) {l : Call × (ℕ → AuthChoice)}
    (fresh : Fresh s.toAuthService g.store l.2) : Extends g.store (served s g l).store := by
  obtain ⟨call, c⟩ := l
  cases call with
  | register email password =>
    unfold served Call.runAlone Call.prog
    rw [Prog.execute_map]
    exact register_extends lineage fresh email password
  | login req =>
    unfold served Call.runAlone Call.prog
    rw [Prog.execute_map]
    exact login_extends lineage fresh
  | refresh plain =>
    obtain ⟨r, _, refreshed⟩ := refresh_served plain fresh
    exact refresh_extends lineage fresh refreshed

/-- The calls find their ids, tokens and hashes new. -/
abbrev AllFresh (s : LoginService) (g : AuthShared MemoryStore)
    (calls : List (Call × (ℕ → AuthChoice))) : Prop :=
  Along (served s) (fun g l => Fresh s.toAuthService g.store l.2) g calls

theorem run_extends {calls : List (Call × (ℕ → AuthChoice))} (fresh : AllFresh s g calls)
    (lineage : Lineage g.store) : Extends g.store (run (served s) g calls).store := by
  refine fresh.invariant (I := fun g' => Extends g.store g'.store) ?_ (.refl lineage)
  intro g' l extends_ fresh
  exact extends_.trans (served_extends extends_.lineage fresh)

theorem refreshed_ok {s : AuthService} {c : ℕ → Choice} {m m' : MemoryStore} {pair : TokenPair}
    (refreshed : Refreshed s plain c m (.ok pair) m') :
    ∃ rt, m.tokens (s.hashRefreshToken plain) = some rt ∧ rt.Live ∧ (c 1).now ≤ rt.expiresAt := by
  cases refreshed with
  | rotated rt stored live inTime => exact ⟨rt, stored, live, inTime⟩

/-- An exchanged token is spent. -/
theorem refreshed_spent {m m' : MemoryStore} {pair : TokenPair}
    (fresh : Fresh s.toAuthService m c)
    (refreshed : Refreshed s.toAuthService plain (fun n => (c n).toChoice) m (.ok pair) m') :
    ∃ rt, m'.tokens (s.hashRefreshToken plain) = some rt ∧ ¬ rt.Live := by
  cases refreshed with
  | rotated rt stored live inTime user known next drawn =>
    have other : s.hashRefreshToken plain ≠ s.hashRefreshToken next := by
      intro same
      rw [same, fresh.newToken 6 next drawn] at stored
      cases stored
    refine ⟨used (c 2).now rt, ?_, fun live => by cases live.2⟩
    refine (Function.update_of_ne other ..).trans ?_
    rw [markUsed_tokens, stored, Option.map_some, if_pos rfl]

/-- A reported reuse leaves the family burnt. -/
theorem refreshed_burnt {s : AuthService} {c : ℕ → Choice} {m m' : MemoryStore}
    (refreshed : Refreshed s plain c m (.error .tokenReuse) m') :
    ∃ rt, m.tokens (s.hashRefreshToken plain) = some rt ∧ Burnt rt.familyID m' := by
  cases refreshed with
  | refused _ other => exact absurd rfl other
  | marked _ _ _ _ other => exact absurd rfl other
  | reused rt stored => exact ⟨rt, stored, revokeFamily_burnt stored⟩

theorem Lineage.empty : Lineage {} where
  linked := .empty
  oneLive _ _ _ _ stored := by cases stored
  oneUser _ _ _ _ stored := by cases stored
  existing _ _ stored := by cases stored

/-- What a refresh after other calls meets, and what it exchanges. -/
theorem later_refresh {s : LoginService} {g : AuthShared MemoryStore} (lineage : Lineage g.store)
    {between rest : List (Call × (ℕ → AuthChoice))} {c : ℕ → AuthChoice}
    (fresh : AllFresh s g (between ++ (.refresh plain, c) :: rest)) :
    Extends g.store (run (served s) g between).store ∧
    ∀ pair, replied s (run (served s) g between) (.refresh plain, c) = .refreshed (.ok pair) →
      ∃ rt, (run (served s) g between).store.tokens (s.hashRefreshToken plain) = some rt ∧
        rt.Live := by
  obtain ⟨freshBetween, freshHere, _⟩ := Along.append.mp fresh
  refine ⟨run_extends freshBetween lineage, fun pair exchanged => ?_⟩
  obtain ⟨r, reply, refreshed⟩ := refresh_served plain freshHere
  rw [exchanged] at reply
  cases reply
  obtain ⟨rt, stored, live, _⟩ := refreshed_ok refreshed
  exact ⟨rt, stored, live⟩

/-- The reading of a `Refresh`'s expiry check, its second operation. -/
abbrev checkedAt (c : ℕ → AuthChoice) : Time := (c 1).now

/-- **The lineage of refresh tokens.** After any calls of `Register`, `Login` and
`Refresh`, one after the other from an empty store, with any presented tokens and
any clock, each family has at most one token that can be exchanged and one user,
who exists. A token is exchanged at most once, and only by a call whose expiry
check reads the clock no later than `ExpiresAt`; after a call has returned
`ErrTokenReuse` for a family, no token of it is exchanged. -/
theorem refresh_lineage (s : LoginService) {calls : List (Call × (ℕ → AuthChoice))}
    (fresh : AllFresh s { store := {} } calls) :
    Lineage (run (served s) { store := {} } calls).store ∧
    ∀ before plain c after, calls = before ++ (.refresh plain, c) :: after →
      (∀ pair, replied s (run (served s) { store := {} } before) (.refresh plain, c) =
          .refreshed (.ok pair) →
        (∃ rt, (run (served s) { store := {} } before).store.tokens (s.hashRefreshToken plain) =
          some rt ∧ checkedAt c ≤ rt.expiresAt) ∧
        ∀ between plain' c' rest pair', after = between ++ (.refresh plain', c') :: rest →
          s.hashRefreshToken plain' = s.hashRefreshToken plain →
          replied s (run (served s) { store := {} } (before ++ (.refresh plain, c) :: between))
            (.refresh plain', c') ≠ .refreshed (.ok pair')) ∧
      (replied s (run (served s) { store := {} } before) (.refresh plain, c) =
          .refreshed (.error .tokenReuse) →
        ∃ rt, (run (served s) { store := {} } before).store.tokens (s.hashRefreshToken plain) =
          some rt ∧
        ∀ between plain' c' rest pair' rt', after = between ++ (.refresh plain', c') :: rest →
          (run (served s) { store := {} } (before ++ (.refresh plain, c) :: between)).store.tokens
            (s.hashRefreshToken plain') = some rt' → rt'.familyID = rt.familyID →
          replied s (run (served s) { store := {} } (before ++ (.refresh plain, c) :: between))
            (.refresh plain', c') ≠ .refreshed (.ok pair')) := by
  refine ⟨(run_extends fresh .empty).lineage, ?_⟩
  intro before plain c after split
  subst split
  obtain ⟨freshBefore, freshHere, freshAfter⟩ := Along.append.mp fresh
  have reached := run_extends freshBefore .empty
  obtain ⟨r, reply, refreshed⟩ := refresh_served plain freshHere
  have lineage := (served_extends reached.lineage freshHere).lineage
  simp only [run_append, run_cons]
  constructor
  · intro pair ok
    rw [ok] at reply
    cases reply
    obtain ⟨rt, stored, _, inTime⟩ := refreshed_ok refreshed
    refine ⟨⟨rt, stored, inTime⟩, fun between plain' c' rest pair' split same ok' => ?_⟩
    subst split
    obtain ⟨extended, exchanged⟩ := later_refresh lineage freshAfter
    obtain ⟨spent, stored₁, dead⟩ := refreshed_spent freshHere refreshed
    obtain ⟨rt₂, stored₂, _, alive⟩ := extended.kept _ spent stored₁
    obtain ⟨rt', stored', live'⟩ := exchanged pair' ok'
    rw [same, stored₂] at stored'
    cases stored'
    exact dead (alive live')
  · intro reuse
    rw [reuse] at reply
    cases reply
    obtain ⟨rt, stored, burnt⟩ := refreshed_burnt refreshed
    refine ⟨rt, stored, fun between plain' c' rest pair' rt' split stored' family ok' => ?_⟩
    subst split
    obtain ⟨extended, exchanged⟩ := later_refresh lineage freshAfter
    obtain ⟨rt₂, stored₂, live⟩ := exchanged pair' ok'
    rw [stored'] at stored₂
    cases stored₂
    have revoked := (extended.burnt _ burnt).2 _ rt' stored' family
    rw [live.1] at revoked
    cases revoked

end

/-! ## A session whose first token is presented twice -/

/-- What the environment draws, the same at every operation of a call. -/
def drawing (uuid plain : String) : ℕ → AuthChoice := fun _ =>
  { uuid, passwordHash := some "own", accessToken := some "jwt", refreshToken := some plain }

def openSession : List (Call × (ℕ → AuthChoice)) :=
  [(.register "own@example.com" "own", drawing "u-1" "rt-0"),
    (.login ownLogin, drawing "f-1" "rt-1")]

def firstExchange : Call × (ℕ → AuthChoice) := (.refresh "rt-1", drawing "f-2" "rt-2")

def secondExchange : Call × (ℕ → AuthChoice) := (.refresh "rt-1", drawing "f-3" "rt-3")

theorem forall_stored {P : RefreshToken → Prop} {tokens : String → Option RefreshToken}
    {hash : String} {t : RefreshToken} (others : ∀ h rt, tokens h = some rt → P rt) (own : P t) :
    ∀ h rt, Function.update tokens hash (some t) h = some rt → P rt := by
  intro h rt stored
  by_cases same : h = hash
  · rw [same, Function.update_self] at stored
    cases stored
    exact own
  · rw [Function.update_of_ne same] at stored
    exact others h rt stored

theorem drawing_fresh {m : MemoryStore} {uuid plain : String} (newUser : m.byID uuid = none)
    (newFamily : ∀ h rt, m.tokens h = some rt → rt.familyID ≠ uuid)
    (newToken : m.tokens (sampleLoginService.hashRefreshToken plain) = none) :
    Fresh sampleLoginService.toAuthService m (drawing uuid plain) where
  succeed _ := rfl
  newUser _ := newUser
  newFamily _ := newFamily
  newToken _ plain' drawn := by
    cases drawn
    exact newToken

theorem session_fresh : AllFresh sampleLoginService { store := {} }
    (openSession ++ [firstExchange, secondExchange]) := by
  have none_stored : ∀ (P : RefreshToken → Prop) (h : String) (rt : RefreshToken),
      (fun _ => none : String → Option RefreshToken) h = some rt → P rt :=
    fun P h rt stored => by cases stored
  refine ⟨drawing_fresh rfl (none_stored _) rfl, drawing_fresh rfl (none_stored _) rfl,
    drawing_fresh rfl ?_ rfl, drawing_fresh rfl ?_ rfl, trivial⟩
  · exact forall_stored (none_stored _) (by decide)
  · exact forall_stored (forall_stored (forall_stored (none_stored _) (by decide)) (by decide))
      (by decide)

theorem refresh_lineage_session :
    Lineage (run (served sampleLoginService) { store := {} }
      (openSession ++ [firstExchange, secondExchange])).store ∧
    replied sampleLoginService (run (served sampleLoginService) { store := {} }
      (openSession ++ [firstExchange])) secondExchange ≠ .refreshed (.ok ⟨"jwt", "rt-3"⟩) :=
  ⟨(refresh_lineage sampleLoginService session_fresh).1,
    (((refresh_lineage sampleLoginService session_fresh).2 openSession "rt-1" _ [secondExchange]
      rfl).1 _ rfl).2 [] "rt-1" _ [] _ rfl rfl⟩

/-! ## A token marked used after its expiry -/

/-- The clock never goes back, within a call and from a call to the next ones. -/
structure Nondecreasing (calls : List (Call × (ℕ → AuthChoice))) : Prop where
  within : ∀ l ∈ calls, Monotone fun n => (l.2 n).now
  across : calls.Pairwise fun l l' => ∀ n n', (l.2 n).now ≤ (l'.2 n').now

/-- The first token's exchange as it expires: the clock moves on between the expiry
check and `MarkUsed`. -/
def lateExchange : Call × (ℕ → AuthChoice) :=
  (.refresh "rt-1", fun n => { drawing "f-2" "rt-2" n with
    now := sampleLoginService.refreshTTL + if n ≤ 1 then 0 else 1 })

theorem lateExchange_monotone : Monotone fun n => (lateExchange.2 n).now := by
  intro i j le
  refine Int.add_le_add_left ?_ sampleLoginService.refreshTTL
  split <;> split <;> omega

theorem lateSession_nondecreasing : Nondecreasing (openSession ++ [lateExchange]) where
  within := List.forall_mem_cons.mpr ⟨monotone_const, List.forall_mem_cons.mpr
    ⟨monotone_const, List.forall_mem_singleton.mpr lateExchange_monotone⟩⟩
  across := by
    have late (n : ℕ) : (0 : Time) ≤ (lateExchange.2 n).now :=
      le_trans (by decide) (lateExchange_monotone (Nat.zero_le n))
    refine List.pairwise_cons.mpr ⟨List.forall_mem_cons.mpr ⟨fun _ _ => le_refl _, ?_⟩,
      List.pairwise_cons.mpr ⟨?_, List.pairwise_singleton _ _⟩⟩
    · exact List.forall_mem_singleton.mpr fun _ => late
    · exact List.forall_mem_singleton.mpr fun _ => late

theorem lateSession_fresh : AllFresh sampleLoginService { store := {} }
    (openSession ++ [lateExchange]) := by
  obtain ⟨registered, loggedIn, exchanged, _⟩ := session_fresh
  exact ⟨registered, loggedIn, ⟨fun _ => rfl, exchanged.newUser, exchanged.newFamily,
    exchanged.newToken⟩, trivial⟩

/-- `Refresh` reads the clock once for the expiry check and again for `MarkUsed`: a
token is exchanged, and the stored `UsedAt` is after its `ExpiresAt`. -/
theorem used_after_expiry :
    AllFresh sampleLoginService { store := {} } (openSession ++ [lateExchange]) ∧
    Nondecreasing (openSession ++ [lateExchange]) ∧
    replied sampleLoginService (run (served sampleLoginService) { store := {} } openSession)
      lateExchange = .refreshed (.ok ⟨"jwt", "rt-2"⟩) ∧
    ∃ rt usedAt, (run (served sampleLoginService) { store := {} }
        (openSession ++ [lateExchange])).store.tokens
        (sampleLoginService.hashRefreshToken "rt-1") = some rt ∧
      rt.usedAt = some usedAt ∧ rt.expiresAt < usedAt :=
  ⟨lateSession_fresh, lateSession_nondecreasing, rfl, _, _, rfl, rfl, by decide⟩

end VaultWatch.Gateway
