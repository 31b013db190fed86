import Blackboard.Model.AccessApi
import Blackboard.Proof.GuestReads

/-!
# Under which name a caller is known

A request may carry a session, a proof and a token at once, good ones and bad ones. The
resolution lets one of them decide: the session if there is one and no proof, the proof if
there is one and no session, the token if there is neither. The principal is named after the
headers alone, but in the same order, so it is named after what was verified.
-/

namespace Blackboard

open Concurrent (Program)

namespace AccessApi

variable [Sha256] [Hmac] [Base64Url] [JsonParser]

/-- A credential that makes the request come from this identity, and the provider it stands for. -/
inductive Authenticated (key : Bytes) (w : World) (headers : Headers)
    (method requestTarget : String) (identity : Identity) : String → Prop
  | session (session : WebAuth.WebSession) :
      headers.containsKey RequestAuth.authProofHeader = false →
      headers.containsKey RequestAuth.authSchemeHeader = false →
      sessionAt key headers w.now = some session → session.sessionType = .humanWeb →
      w.now.toNat ≤ session.expiresAt →
      getWebParticipant w.db session.participantId = some identity →
      Authenticated key w headers method requestTarget identity "human-web"
  | proof (participantId proof : String) (auth : ParticipantAuthRecord) :
      headers.containsKey WebAuth.webSessionHeader = false →
      headers.text RequestAuth.participantIdHeader = some participantId →
      headers.text RequestAuth.authSchemeHeader = some ParticipantAuth.authScheme →
      headers.text RequestAuth.authProofHeader = some proof →
      getWebParticipantAuth w.db participantId = some auth →
      auth.authScheme = ParticipantAuth.authScheme →
      WebAuth.verifyHttpRequestAuth auth.authSecret proof participantId method requestTarget
        = true →
      auth.identity = identity →
      Authenticated key w headers method requestTarget identity "participant-hmac"
  | token (token : String) :
      headers.containsKey WebAuth.webSessionHeader = false →
      headers.containsKey RequestAuth.participantIdHeader = false →
      headers.containsKey RequestAuth.authProofHeader = false →
      headers.containsKey RequestAuth.authSchemeHeader = false →
      headers.bearerToken = some token → resolveIdentity w.db token = some identity →
      Authenticated key w headers method requestTarget identity "bearer"

variable {key : Bytes} {w : World} {headers : Headers} {method requestTarget : String}
  {identity : Identity}

omit [Sha256] in
theorem expiresAt_of_sessionAt {now : Int} {session : WebAuth.WebSession}
    (h : sessionAt key headers now = some session) : now.toNat ≤ session.expiresAt := by
  obtain ⟨token, -, hverify⟩ := Option.bind_eq_some_iff.mp h
  obtain ⟨claims, hclaims⟩ := verifyWebSessionAt_claims key token
  rw [hclaims] at hverify
  obtain ⟨value, -, hvalue⟩ := Option.bind_eq_some_iff.mp hverify
  exact (sessionClaims_eq_some hvalue).2.1

omit [Sha256] [JsonParser] in
theorem signedIdentity_eq_some_iff {db : Database} {participantId proof : String} :
    RequestAuth.signedIdentity db participantId proof method requestTarget = some identity
      ↔ ∃ auth, getWebParticipantAuth db participantId = some auth
        ∧ auth.authScheme = ParticipantAuth.authScheme
        ∧ WebAuth.verifyHttpRequestAuth auth.authSecret proof participantId method requestTarget
          = true
        ∧ auth.identity = identity := by
  unfold RequestAuth.signedIdentity
  cases getWebParticipantAuth db participantId with
  | none => simp
  | some auth =>
      dsimp only
      by_cases hbad : auth.authScheme ≠ ParticipantAuth.authScheme
          ∨ WebAuth.verifyHttpRequestAuth auth.authSecret proof participantId method
              requestTarget = false
      · rw [if_pos hbad]
        refine ⟨fun h => absurd h (by simp), ?_⟩
        rintro ⟨auth', hauth, hscheme, hproof, -⟩
        obtain rfl := Option.some.inj hauth
        rcases hbad with h | h
        · exact absurd hscheme h
        · exact absurd (hproof.symm.trans h) (by simp)
      · rw [if_neg hbad]
        push Not at hbad
        constructor
        · intro h
          exact ⟨auth, rfl, hbad.1, by simpa using hbad.2, Option.some.inj h⟩
        · rintro ⟨auth', hauth, -, -, hid⟩
          rw [Option.some.inj hauth, hid]

/-! ## The resolution, case by case -/

theorem run_resolve_of_proof (hproof : headers.containsKey RequestAuth.authProofHeader = true
    ∨ headers.containsKey RequestAuth.authSchemeHeader = true)
    (hsession : headers.containsKey WebAuth.webSessionHeader = false) :
    ((RequestAuth.resolveRequestIdentityForTarget key headers method requestTarget).run w).1
        = some identity
      ↔ ∃ participantId proof, headers.text RequestAuth.participantIdHeader = some participantId
        ∧ headers.text RequestAuth.authSchemeHeader = some ParticipantAuth.authScheme
        ∧ headers.text RequestAuth.authProofHeader = some proof
        ∧ RequestAuth.signedIdentity w.db participantId proof method requestTarget
          = some identity := by
  unfold RequestAuth.resolveRequestIdentityForTarget
  rw [if_neg (not_not.mpr hproof), if_neg (by simp [hsession])]
  cases hparticipant : headers.text RequestAuth.participantIdHeader with
  | none => simp [Program.run]
  | some participantId =>
      cases hscheme : headers.text RequestAuth.authSchemeHeader with
      | none => simp [Program.run]
      | some scheme =>
          cases hproofText : headers.text RequestAuth.authProofHeader with
          | none => simp [Program.run]
          | some proof =>
              dsimp only
              by_cases hs : scheme = ParticipantAuth.authScheme
              · rw [if_neg (not_not.mpr hs), run_query]
                simp [hs]
              · rw [if_pos hs]
                simp [hs]

/-- A session and a proof together are refused. -/
theorem run_resolve_of_both (hproof : headers.containsKey RequestAuth.authProofHeader = true
    ∨ headers.containsKey RequestAuth.authSchemeHeader = true)
    (hsession : headers.containsKey WebAuth.webSessionHeader = true) :
    ((RequestAuth.resolveRequestIdentityForTarget key headers method requestTarget).run w).1
      = none := by
  unfold RequestAuth.resolveRequestIdentityForTarget
  rw [if_neg (not_not.mpr hproof), if_pos hsession]
  rfl

theorem run_resolve_of_session (hproof : headers.containsKey RequestAuth.authProofHeader = false)
    (hscheme : headers.containsKey RequestAuth.authSchemeHeader = false)
    (hsession : headers.containsKey WebAuth.webSessionHeader = true) :
    ((RequestAuth.resolveRequestIdentityForTarget key headers method requestTarget).run w).1
        = some identity
      ↔ ∃ session, sessionAt key headers w.now = some session ∧ session.sessionType = .humanWeb
        ∧ getWebParticipant w.db session.participantId = some identity := by
  unfold RequestAuth.resolveRequestIdentityForTarget RequestAuth.resolveRequestIdentity
  rw [if_pos (by simp [hproof, hscheme]), if_pos hsession, Program.run_bind,
    run_verifiedWebSession]
  dsimp only
  cases sessionAt key headers w.now with
  | none => simp
  | some session =>
      dsimp only
      by_cases hkind : session.sessionType = .humanWeb
      · rw [if_neg (not_not.mpr hkind), run_query]
        simp [hkind]
      · rw [if_pos hkind]
        simp [hkind]

theorem run_resolve_of_token (hproof : headers.containsKey RequestAuth.authProofHeader = false)
    (hscheme : headers.containsKey RequestAuth.authSchemeHeader = false)
    (hsession : headers.containsKey WebAuth.webSessionHeader = false) :
    ((RequestAuth.resolveRequestIdentityForTarget key headers method requestTarget).run w).1
        = some identity
      ↔ headers.containsKey RequestAuth.participantIdHeader = false
        ∧ ∃ token, headers.bearerToken = some token
          ∧ resolveIdentity w.db token = some identity := by
  unfold RequestAuth.resolveRequestIdentityForTarget RequestAuth.resolveRequestIdentity
  rw [if_pos (by simp [hproof, hscheme]), if_neg (by simp [hsession])]
  by_cases hparticipant : headers.containsKey RequestAuth.participantIdHeader = true
  · rw [if_pos (Or.inl hparticipant)]
    simp [hparticipant]
  · rw [if_neg (by simp [hparticipant, hproof, hscheme])]
    rw [Bool.not_eq_true] at hparticipant
    cases headers.bearerToken with
    | none => simp
    | some token => simp [hparticipant]

/-! ## The principal -/

/-- **What decides is what the principal is named after.** -/
theorem authenticated_iff {provider : String} :
    Authenticated key w headers method requestTarget identity provider
      ↔ ((RequestAuth.resolveRequestIdentityForTarget key headers method requestTarget).run w).1
          = some identity
        ∧ (principalForHeaders headers identity).provider = provider := by
  constructor
  · intro h
    cases h with
    | session session hproof hscheme hs hkind hexpires hwho =>
        obtain ⟨token, htoken, -⟩ := Option.bind_eq_some_iff.mp hs
        have hsession := containsKey_of_text htoken
        refine ⟨(run_resolve_of_session hproof hscheme hsession).mpr ⟨session, hs, hkind, hwho⟩, ?_⟩
        exact if_pos hsession
    | proof participantId proof auth hsession hparticipant hscheme hproof hauth hown hverify hid =>
        have hkey := Or.inr (a := headers.containsKey RequestAuth.authProofHeader = true)
          (containsKey_of_text hscheme)
        refine ⟨(run_resolve_of_proof hkey hsession).mpr ⟨participantId, proof, hparticipant,
          hscheme, hproof, signedIdentity_eq_some_iff.mpr ⟨auth, hauth, hown, hverify, hid⟩⟩, ?_⟩
        unfold principalForHeaders
        dsimp only
        rw [if_neg (by simp [hsession]), if_pos hkey]
    | token token hsession hparticipant hproof hscheme htoken hwho =>
        refine ⟨(run_resolve_of_token hproof hscheme hsession).mpr
          ⟨hparticipant, token, htoken, hwho⟩, ?_⟩
        unfold principalForHeaders
        dsimp only
        rw [if_neg (by simp [hsession]), if_neg (by simp [hproof, hscheme])]
  · rintro ⟨hrun, rfl⟩
    unfold principalForHeaders
    dsimp only
    by_cases hsession : headers.containsKey WebAuth.webSessionHeader = true
    · rw [if_pos hsession]
      by_cases hproof : headers.containsKey RequestAuth.authProofHeader = true
          ∨ headers.containsKey RequestAuth.authSchemeHeader = true
      · rw [run_resolve_of_both hproof hsession] at hrun
        exact absurd hrun (by simp)
      · rw [not_or, Bool.not_eq_true, Bool.not_eq_true] at hproof
        obtain ⟨session, hs, hkind, hwho⟩ :=
          (run_resolve_of_session hproof.1 hproof.2 hsession).mp hrun
        exact .session session hproof.1 hproof.2 hs hkind (expiresAt_of_sessionAt hs) hwho
    · rw [if_neg hsession]
      rw [Bool.not_eq_true] at hsession
      by_cases hproof : headers.containsKey RequestAuth.authProofHeader = true
          ∨ headers.containsKey RequestAuth.authSchemeHeader = true
      · rw [if_pos hproof]
        obtain ⟨participantId, proof, hparticipant, hscheme, htext, hsigned⟩ :=
          (run_resolve_of_proof hproof hsession).mp hrun
        obtain ⟨auth, hauth, hown, hverify, hid⟩ := signedIdentity_eq_some_iff.mp hsigned
        exact .proof participantId proof auth hsession hparticipant hscheme htext hauth hown
          hverify hid
      · rw [if_neg hproof]
        rw [not_or, Bool.not_eq_true, Bool.not_eq_true] at hproof
        obtain ⟨hparticipant, token, htoken, hwho⟩ :=
          (run_resolve_of_token hproof.1 hproof.2 hsession).mp hrun
        exact .token token hsession hparticipant hproof.1 hproof.2 htoken hwho

/-- The other mechanisms have other names. -/
theorem session_of_authenticated {provider : String}
    (h : Authenticated key w headers method requestTarget identity provider)
    (hprovider : provider = "human-web") :
    ∃ token session, headers.text WebAuth.webSessionHeader = some token
      ∧ WebAuth.verifyWebSessionAt key token w.now.toNat = some session
      ∧ session.sessionType = .humanWeb ∧ w.now.toNat ≤ session.expiresAt
      ∧ session.participantId = identity.inst := by
  cases h with
  | session session hproof hscheme hs hkind hexpires hwho =>
      obtain ⟨token, htoken, hverify⟩ := Option.bind_eq_some_iff.mp hs
      exact ⟨token, session, htoken, hverify, hkind, hexpires, (getWebParticipant_inst hwho).symm⟩
  | proof => exact absurd hprovider (by decide)
  | token => exact absurd hprovider (by decide)

/-- **Callers are known under what they verified.** The principal of a request that resolves has the
resolved instance as its subject, and as its provider the one mechanism whose credential decided.
It is a human's only by an unexpired session of that very participant. -/
theorem principal_faithful (key : Bytes) (w : World) (headers : Headers)
    (method requestTarget : String) :
    (∀ identity,
      ((RequestAuth.resolveRequestIdentityForTarget key headers method requestTarget).run w).1
          = some identity →
        (principalForHeaders headers identity).subject = identity.inst
        ∧ ∀ provider, Authenticated key w headers method requestTarget identity provider
            ↔ (principalForHeaders headers identity).provider = provider)
    ∧ (∀ identity provider, Authenticated key w headers method requestTarget identity provider →
      ((RequestAuth.resolveRequestIdentityForTarget key headers method requestTarget).run w).1
        = some identity)
    ∧ ∀ identity,
      ((RequestAuth.resolveRequestIdentityForTarget key headers method requestTarget).run w).1
          = some identity →
        (principalForHeaders headers identity).provider = "human-web" →
        ∃ token session, headers.text WebAuth.webSessionHeader = some token
          ∧ WebAuth.verifyWebSessionAt key token w.now.toNat = some session
          ∧ session.sessionType = .humanWeb ∧ w.now.toNat ≤ session.expiresAt
          ∧ session.participantId = identity.inst := by
  refine ⟨fun identity hrun => ⟨rfl, fun provider => ?_⟩, fun identity provider h => ?_,
    fun identity hrun hprovider => ?_⟩
  · rw [authenticated_iff]
    exact ⟨fun h => h.2, fun h => ⟨hrun, h⟩⟩
  · exact (authenticated_iff.mp h).1
  · exact session_of_authenticated (authenticated_iff.mpr ⟨hrun, hprovider⟩) rfl

end AccessApi

end Blackboard
