import VaultWatch.Gateway.AuthService

/-! # Concurrent `Refresh` calls

What a call knows at each point of its program (`Known`), and what each
operation does to the stored tokens (`handle_tokens`). Safety results about
concurrent calls are inductions on the schedule from these two. Both stores are
covered, and every store failure. -/
namespace VaultWatch.Gateway

open VaultWatch.Gateway.Store VaultWatch.Lib.Run VaultWatch.Lib.Interleave AuthService

/-! ## What a call knows -/

/-- The call's `Get` found the token `rt` under `hash`. -/
abbrev Presented (hash : String) (rt : RefreshToken) (done : List (Prog.Done Op Res)) : Prop :=
  done.head? = some ⟨.get hash, .ok rt⟩

theorem Presented.snoc {hash : String} {rt : RefreshToken} {done : List (Prog.Done Op Res)}
    (h : Presented hash rt done) (d : Prog.Done Op Res) : Presented hash rt (done ++ [d]) := by
  unfold Presented at h ⊢
  rw [List.head?_append, h]; rfl

theorem Presented.unique {hash hash' : String} {rt rt' : RefreshToken}
    {done : List (Prog.Done Op Res)} (h : Presented hash rt done) (h' : Presented hash' rt' done) :
    rt = rt' := by
  unfold Presented at h h'
  rw [h] at h'
  injection h' with hd
  injection hd with ho hr
  cases ho
  injection hr

/-- The call's `MarkUsed` of `hash` succeeded. -/
def Marked (hash : String) (done : List (Prog.Done Op Res)) : Prop :=
  ∃ now, (⟨.markUsed hash now, .ok ()⟩ : Prog.Done Op Res) ∈ done

theorem Marked.snoc {hash : String} {done : List (Prog.Done Op Res)}
    (h : Marked hash done) (d : Prog.Done Op Res) : Marked hash (done ++ [d]) :=
  h.imp fun _ hm => List.mem_append_left _ hm

/-- The call has executed its sweep of the family, whatever the store answered. -/
def Swept (familyID : String) (done : List (Prog.Done Op Res)) : Prop :=
  ∃ d ∈ done, d.1 = .revokeFamily familyID

instance (familyID : String) (done : List (Prog.Done Op Res)) : Decidable (Swept familyID done) :=
  inferInstanceAs (Decidable (∃ d ∈ done, d.1 = .revokeFamily familyID))

theorem Swept.snoc {familyID : String} {done : List (Prog.Done Op Res)}
    (h : Swept familyID done) (d : Prog.Done Op Res) : Swept familyID (done ++ [d]) :=
  h.imp fun _ hm => ⟨List.mem_append_left _ hm.1, hm.2⟩

/-- What a call presenting a token of hash `hash` knows where it stands. -/
structure Known (hash : String) (done : List (Prog.Done Op Res))
    (todo : RefreshProg (Except AuthError TokenPair)) : Prop where
  marking : ∀ hash' now k, todo = .call (.markUsed hash' now) k →
    hash' = hash ∧ ∃ rt, Presented hash rt done
  reused : todo = .ret (.error .tokenReuse) →
    ∃ rt, Presented hash rt done ∧ Swept rt.familyID done
  issued : ∀ pair, todo = .ret (.ok pair) →
    Marked hash done ∧ ∃ rt, Presented hash rt done ∧ rt.revoked = false ∧ rt.usedAt = none

/-- Before any operation but `MarkUsed` nothing is claimed. -/
theorem Known.before {hash : String} {done : List (Prog.Done Op Res)} {o : Op}
    {k : Res o → RefreshProg (Except AuthError TokenPair)}
    (h : ∀ hash' now, o ≠ .markUsed hash' now) : Known hash done (.call o k) where
  marking hash' now k' he := by
    cases he; exact (h hash' now rfl).elim
  reused he := by cases he
  issued pair he := by cases he

theorem Known.refused {hash : String} {done : List (Prog.Done Op Res)} {e : AuthError}
    (h : e ≠ .tokenReuse) : Known hash done (.ret (.error e)) where
  marking _ _ _ he := by cases he
  reused he := by cases he; exact (h rfl).elim
  issued pair he := by cases he

section
variable (s : AuthService) {hash : String} {rt : RefreshToken} {done : List (Prog.Done Op Res)}

theorem reuse_known (hp : Presented hash rt done) : (reuse rt).Always (Known hash) done := by
  refine ⟨.before (by simp), fun r => ?_⟩  -- RevokeFamily
  have hs : Swept rt.familyID (done ++ [⟨.revokeFamily rt.familyID, r⟩]) :=
    ⟨⟨.revokeFamily rt.familyID, r⟩, by simp, rfl⟩
  refine ⟨.before (by simp), fun now => ⟨.before (by simp), fun _ => ?_⟩⟩  -- Now, Publish
  exact {
    marking := fun _ _ _ he => by cases he
    reused := fun _ => ⟨rt, ((hp.snoc _).snoc _).snoc _, (hs.snoc _).snoc _⟩
    issued := fun _ he => by cases he }

theorem issueTokenPair_known (hp : Presented hash rt done) (hm : Marked hash done)
    (hr : rt.revoked = false) (hu : rt.usedAt = none) (userID email familyID : String) :
    (s.issueTokenPair userID email familyID).Always (Known hash) done := by
  refine ⟨.before (by simp), fun access => ?_⟩  -- IssueAccessToken
  cases access with
  | none => exact .refused (by simp)
  | some access =>
    refine ⟨.before (by simp), fun plain => ?_⟩  -- GenerateRefreshToken
    cases plain with
    | none => exact .refused (by simp)
    | some plain =>
      refine ⟨.before (by simp), fun now => ⟨.before (by simp), fun saved => ?_⟩⟩  -- Now, Save
      cases saved with
      | error e => exact .refused (by simp)
      | ok u => exact {
          marking := fun _ _ _ he => by cases he
          reused := fun he => by cases he
          issued := fun _ _ => ⟨(((hm.snoc _).snoc _).snoc _).snoc _, rt,
            (((hp.snoc _).snoc _).snoc _).snoc _, hr, hu⟩ }

theorem rotate_known (hp : Presented hash rt done) (hr : rt.revoked = false)
    (hu : rt.usedAt = none) : (s.rotate hash rt).Always (Known hash) done := by
  refine ⟨.before (by simp), fun now => ?_⟩
  have hp := hp.snoc ⟨.now, now⟩
  refine ⟨?_, fun marked => ?_⟩  -- MarkUsed
  · exact {
      marking := fun _ _ _ he => by cases he; exact ⟨rfl, rt, hp⟩
      reused := fun he => by cases he
      issued := fun _ he => by cases he }
  cases marked with
  | error e => exact .refused (by simp)
  | ok u =>
    have hp := hp.snoc ⟨.markUsed hash now, .ok u⟩
    have hm : Marked hash (done ++ [⟨.now, now⟩] ++ [⟨.markUsed hash now, .ok u⟩]) :=
      ⟨now, by simp⟩
    refine ⟨.before (by simp), fun user => ?_⟩  -- GetUserByID
    cases user with
    | error e => exact .refused (by simp)
    | ok user => exact issueTokenPair_known s (hp.snoc _) (hm.snoc _) hr hu _ _ _

/-- At every point of a `Refresh` the call knows what `Known` says. -/
theorem refresh_known (plain : String) :
    (s.refresh plain).Always (Known (s.hashRefreshToken plain)) [] := by
  refine ⟨.before (by simp), fun got => ?_⟩  -- Get
  cases got with
  | error e => exact .refused (by simp)
  | ok rt =>
    have hp : Presented (s.hashRefreshToken plain) rt
      ([] ++ [⟨.get (s.hashRefreshToken plain), .ok rt⟩]) := rfl
    show Prog.Always _ _ (if rt.revoked || rt.usedAt.isSome then reuse rt else _)
    split
    · exact reuse_known hp
    next hlive =>
      refine ⟨.before (by simp), fun now => ?_⟩
      show Prog.Always _ _ (if rt.expiresAt < now then _ else _)
      split
      · exact .refused (by simp)
      · obtain ⟨hr, hu⟩ : rt.revoked = false ∧ rt.usedAt = none := by simpa using hlive
        exact rotate_known s (hp.snoc _) hr hu

end

/-! ## What the operations do to the stored tokens -/

section
variable {b : Backend} {c : Choice} {g : Shared b.State}

/-- The stored tokens of a state. -/
abbrev Backend.stored (b : Backend) (g : Shared b.State) : String → Option RefreshToken :=
  b.tokens g.store

def used (now : Time) (rt : RefreshToken) : RefreshToken := { rt with usedAt := some now }

def revokedIn (familyID : String) (rt : RefreshToken) : RefreshToken :=
  if rt.familyID = familyID then { rt with revoked := true } else rt

/-- A write either reaches the store or leaves the state as it is. -/
theorem writing_cases {σ α : Type} (f : Option Fault) (method : σ → Except StoreError α × σ)
    (g : Shared σ) : (writing f method g).2 = g ∨
      (writing f method g).2.store = (method g.store).2 := by
  rcases f with _ | _ | _
  · exact .inr rfl
  · exact .inl rfl
  · exact .inr rfl

/-- Everything an operation can do to the stored tokens. -/
theorem handle_tokens (o : Op) :
    b.stored (handle b.store c o g).2 = b.stored g ∨
    (∃ hash now, o = .markUsed hash now ∧ b.stored (handle b.store c o g).2 =
      Function.update (b.stored g) hash ((b.stored g hash).map (used (b.column now)))) ∨
    (∃ rt stored, o = .save rt ∧ stored.familyID = rt.familyID ∧
      b.stored (handle b.store c o g).2 = Function.update (b.stored g) rt.hash (some stored)) ∨
    (∃ familyID, o = .revokeFamily familyID ∧ b.stored (handle b.store c o g).2 =
      fun h => (b.stored g h).map (revokedIn familyID)) := by
  cases o with
  | markUsed hash now =>
    rcases writing_cases c.fault (b.store.markUsed hash now) g with h | h
    · left; simp [handle, h]
    · right; left
      refine ⟨hash, now, rfl, ?_⟩
      simp only [Backend.stored, handle, h, b.tokenStore.markUsed]
      rfl
  | save rt =>
    rcases writing_cases c.fault (b.store.save rt) g with h | h
    · left; simp [handle, h]
    · rcases b.tokenStore.save rt g.store with hs | ⟨_, hs⟩
      · left; simp [Backend.stored, handle, h, hs]
      · right; right; left
        exact ⟨rt, { rt with usedAt := rt.usedAt.map b.column
                             expiresAt := b.column rt.expiresAt },
          rfl, rfl, by simp only [Backend.stored, handle, h, hs]⟩
  | revokeFamily familyID =>
    rcases writing_cases c.fault (b.store.revokeFamily familyID) g with h | h
    · left; simp [handle, h]
    · right; right; right
      refine ⟨familyID, rfl, ?_⟩
      simp only [Backend.stored, handle, h, (b.tokenStore.revokeFamily familyID g.store).2]
      rfl
  | get hash => exact .inl rfl
  | getUserByID id => exact .inl rfl
  | now => exact .inl rfl
  | issueAccessToken userID email => exact .inl rfl
  | generateRefreshToken => exact .inl rfl
  | publish event => exact .inl rfl

/-- A token that `Get` answers is the stored one. -/
theorem handle_get {hash : String} {rt : RefreshToken}
    (h : (handle b.store c (.get hash) g).1 = .ok rt) : b.stored g hash = some rt := by
  simp only [handle, reading] at h
  split at h
  · rw [b.tokenStore.get] at h
    unfold orNotFound at h
    split at h
    next rt' hrt => cases h; exact hrt
    next => cases h
  · cases h

/-- An acknowledged `MarkUsed` took effect. -/
theorem handle_markUsed {hash : String} {now : Time}
    (h : (handle b.store c (.markUsed hash now) g).1 = .ok ()) :
    b.stored (handle b.store c (.markUsed hash now) g).2 =
      Function.update (b.stored g) hash ((b.stored g hash).map (used (b.column now))) := by
  have hc : c.fault = none := by
    rcases hf : c.fault with _ | _ | _
    · rfl
    · simp [handle, writing, hf] at h
    · simp [handle, writing, hf] at h
  simp only [Backend.stored, handle, writing, hc, b.tokenStore.markUsed]
  rfl

/-- An operation that does not reach the store leaves its tokens. -/
theorem stored_notExecuted (o : Op) (hc : c.fault = some .notExecuted) :
    b.stored (handle b.store c o g).2 = b.stored g := by
  cases o <;> simp only [Backend.stored, handle, writing, hc]

/-- A sweep that reaches the store revokes the whole family. -/
theorem handle_revokeFamily {familyID : String} (hc : c.fault ≠ some .notExecuted) :
    b.stored (handle b.store c (.revokeFamily familyID) g).2 =
      fun h => (b.stored g h).map (revokedIn familyID) := by
  rcases hf : c.fault with _ | _ | _
  · simp only [Backend.stored, handle, writing, hf,
      (b.tokenStore.revokeFamily familyID g.store).2]
    rfl
  · exact (hc hf).elim
  · simp only [Backend.stored, handle, writing, hf,
      (b.tokenStore.revokeFamily familyID g.store).2]
    rfl

end

end VaultWatch.Gateway
