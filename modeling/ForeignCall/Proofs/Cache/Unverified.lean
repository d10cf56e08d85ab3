import ForeignCall.Proofs.Cache.Following
import ForeignCall.Proofs.Call.Admission
import ForeignCall.Proofs.Call.Preparation
import ForeignCall.Proofs.Element.Verification

/-! # Descriptors that were not verified

A lookup hands out what is kept, and what is kept was prepared under the settings of its time. While
layouts are not verified this is no difference, because verification only refuses. Once they are, a
lookup answers as a fresh preparation would, except for a signature that preparation refuses and that
became resident while layouts were not verified (`ConfiguredCache.get_eq_prepare_iff`). Calls look
their descriptors up like everyone else, so they are part of the histories here.
-/

namespace ForeignCall

/-- A call leaves the cache as it was, or as a lookup of its signature does. -/
theorem Invocation.cache_invoke {σ : Type} (callee : CallPlan → σ → List UInt8 × σ) (host : Host)
    (settings : Settings) (cache : Cache) (invocation : Invocation) (request : CallRequest)
    (state : σ) :
    (invoke callee host settings cache invocation request state).cache = cache ∨
      (invoke callee host settings cache invocation request state).cache =
        (cache.get settings request.signature).2 := by
  have left : (invoke callee host settings cache invocation request state).cache =
      (plan host settings cache invocation request).2 := by
    unfold invoke
    rcases plan host settings cache invocation request with ⟨_ | made, after⟩
    · rfl
    · dsimp only
      split <;> rfl
  rw [left]
  rcases plan_eq host settings cache invocation request with ⟨_, _, planned⟩ | ⟨_, _, _, _, planned⟩
  · exact .inl (congrArg Prod.snd planned)
  · exact .inr (congrArg Prod.snd planned)

/-- What a program does to a cache: it changes the settings or asks the cache for something, or it
makes a call, whose callee gives the bytes of the result. -/
inductive CacheAction where
  | event (event : CacheEvent)
  | call (callee : CallPlan → List UInt8) (host : Host) (invocation : Invocation)
    (request : CallRequest)

namespace Descriptor

variable {signature : Signature} {descriptor : Descriptor}

/-- Without verification, a signature has every descriptor that it has at all. -/
theorem prepare_unverified {verifyLayouts : Bool}
    (prepared : prepare verifyLayouts signature = .ok descriptor) :
    prepare false signature = .ok descriptor :=
  prepare_eq_ok_iff.mpr ⟨(prepare_eq_ok_iff.mp prepared).1, by simp⟩

end Descriptor

namespace ConfiguredCache

variable {start state : ConfiguredCache} {signature : Signature} {descriptor : Descriptor}
  {action : CacheAction} {actions : List CacheAction}

def act (state : ConfiguredCache) : CacheAction → ConfiguredCache
  | .event event => state.step event
  | .call callee host invocation request =>
    { state with cache := (invocation.invoke (fun plan _ => (callee plan, ())) host state.settings
        state.cache request ()).cache }

def actAll (state : ConfiguredCache) (actions : List CacheAction) : ConfiguredCache :=
  actions.foldl act state

theorem actAll_append (earlier later : List CacheAction) :
    state.actAll (earlier ++ later) = (state.actAll earlier).actAll later :=
  List.foldl_append

theorem actAll_concat (actions : List CacheAction) (action : CacheAction) :
    state.actAll (actions ++ [action]) = (state.actAll actions).act action :=
  actAll_append actions [action]

/-- An action has the effect of an event, or none. -/
theorem act_cases (state : ConfiguredCache) (action : CacheAction) :
    state.act action = state ∨ ∃ event, state.act action = state.step event := by
  cases action with
  | event event => exact .inr ⟨event, rfl⟩
  | call callee host invocation request =>
    rcases Invocation.cache_invoke (fun plan _ => (callee plan, ())) host state.settings state.cache
      invocation request () with same | got
    · left
      rw [act, same]
    · right
      refine ⟨.operate (.get request.signature), ?_⟩
      rw [act, got]
      rfl

theorem isFaithful_act (faithful : state.cache.IsFaithful) (action : CacheAction) :
    (state.act action).cache.IsFaithful := by
  rcases state.act_cases action with same | ⟨event, same⟩
  · rwa [same]
  · rw [same]
    exact isFaithful_run faithful [event]

/-- A signature that becomes resident has just been prepared under the settings in force. -/
theorem exists_prepared_of_act (faithful : state.cache.IsFaithful)
    (missing : state.cache.contains signature = false)
    (resident : (state.act action).cache.contains signature = true) :
    ∃ descriptor, Descriptor.prepare state.settings.verifyLayouts signature = .ok descriptor := by
  rcases state.act_cases action with same | ⟨event, same⟩
  · rw [same, missing] at resident
    contradiction
  rw [same] at resident
  match event with
  | .configure _ | .operate (.pin _) | .operate (.unpin _) =>
    exact absurd (resident.symm.trans missing) (by decide)
  | .operate .clear => cases resident
  | .operate (.get other) =>
    obtain ⟨entry, present, rfl⟩ := Cache.contains_iff.mp resident
    rcases Cache.mem_get state.settings faithful.size_le other present with old | prepared
    · rw [Cache.contains_iff.mpr ⟨entry, old, rfl⟩] at missing
      contradiction
    · exact ⟨_, prepared⟩

/-! ## Residents that were not verified -/

/-- A signature became resident by one of the actions, while layouts were not verified, and has been
resident since. -/
def CameUnverified (start : ConfiguredCache) (actions : List CacheAction) (signature : Signature) :
    Prop :=
  ∃ earlier action later, actions = earlier ++ action :: later ∧
    (start.actAll earlier).settings.verifyLayouts = false ∧
    (start.actAll earlier).cache.contains signature = false ∧
    ∀ more rest, later = more ++ rest →
      (start.actAll (earlier ++ action :: more)).cache.contains signature = true

theorem CameUnverified.resident (unverified : CameUnverified start actions signature) :
    (start.actAll actions).cache.contains signature = true := by
  obtain ⟨earlier, action, later, rfl, _, _, stays⟩ := unverified
  exact stays later [] (List.append_nil later).symm

/-- Whoever came unverified and stays resident has been resident since. -/
theorem CameUnverified.concat (unverified : CameUnverified start actions signature)
    (resident : (start.actAll (actions ++ [action])).cache.contains signature = true) :
    CameUnverified start (actions ++ [action]) signature := by
  obtain ⟨earlier, first, later, rfl, settings, missing, stays⟩ := unverified
  refine ⟨earlier, first, later ++ [action], by simp, settings, missing, fun more rest split => ?_⟩
  rcases List.eq_nil_or_concat rest with rfl | ⟨rest, last, rfl⟩
  · rw [List.append_nil] at split
    rw [← split]
    simpa using resident
  · rw [List.concat_eq_append, ← List.append_assoc] at split
    exact stays more rest (List.append_inj_left' split rfl)

/-- Every resident would pass verification or came unverified. -/
structure IsAccounted (start : ConfiguredCache) (actions : List CacheAction) : Prop where
  faithful : (start.actAll actions).cache.IsFaithful
  verified : ∀ signature, (start.actAll actions).cache.contains signature = true →
    (∃ descriptor, Descriptor.prepare true signature = .ok descriptor) ∨
      CameUnverified start actions signature

theorem IsAccounted.act (accounted : IsAccounted start actions) (action : CacheAction) :
    IsAccounted start (actions ++ [action]) := by
  refine ⟨actAll_concat actions action ▸ isFaithful_act accounted.faithful action, ?_⟩
  intro signature resident
  cases before : (start.actAll actions).cache.contains signature with
  | true =>
    exact (accounted.verified signature before).imp_right fun unverified => unverified.concat resident
  | false =>
    have resident' := resident
    rw [actAll_concat] at resident'
    have prepared := exists_prepared_of_act accounted.faithful before resident'
    cases verifies : (start.actAll actions).settings.verifyLayouts with
    | true => exact .inl (verifies ▸ prepared)
    | false =>
      refine .inr ⟨actions, action, [], rfl, verifies, before, fun more rest split => ?_⟩
      rw [(List.append_eq_nil_iff.mp split.symm).1]
      exact resident

theorem isAccounted_actAll (isNew : start.cache.IsNew) (actions : List CacheAction) :
    IsAccounted start actions := by
  induction actions using List.reverseRecOn with
  | nil =>
    refine ⟨isNew.isFaithful, fun signature resident => ?_⟩
    cases start
    cases isNew <;> cases resident
  | append_singleton actions action ih => exact ih.act action

/-! ## Lookups -/

/-- A signature that verification refuses has a descriptor that was kept without it. -/
def IsBypassed (start : ConfiguredCache) (actions : List CacheAction) (signature : Signature) : Prop :=
  (start.actAll actions).settings.verifyLayouts = true ∧
    (∀ descriptor, Descriptor.prepare true signature ≠ .ok descriptor) ∧
    CameUnverified start actions signature

/-- A lookup finds no difference to a fresh preparation, unless it is bypassed. -/
theorem IsAccounted.get_eq_prepare_iff (accounted : IsAccounted start actions)
    (signature : Signature) :
    ((start.actAll actions).cache.get (start.actAll actions).settings signature).1 =
        Descriptor.prepare (start.actAll actions).settings.verifyLayouts signature ↔
      ¬IsBypassed start actions signature := by
  have fresh (missing : (start.actAll actions).cache.lookup? signature = none) :
      ¬IsBypassed start actions signature := by
    rintro ⟨_, _, unverified⟩
    rw [Cache.lookup?_eq_none_iff, unverified.resident] at missing
    contradiction
  rcases (start.actAll actions).cache.get_cases (start.actAll actions).settings signature with
    ⟨descriptor, found, got⟩ | ⟨descriptor, missing, prepared, got⟩ | ⟨error, missing, failed, got⟩
  · have resident := Cache.contains_iff.mpr ⟨_, Cache.mem_of_lookup? found, rfl⟩
    obtain ⟨_, prepared⟩ := accounted.faithful.prepared _ (Cache.mem_of_lookup? found)
    have unverified := Descriptor.prepare_unverified prepared
    rw [got]
    cases verifies : (start.actAll actions).settings.verifyLayouts with
    | false =>
      refine iff_of_true unverified.symm fun bypassed => ?_
      rw [bypassed.1] at verifies
      contradiction
    | true =>
      cases verified : Descriptor.prepare true signature with
      | ok other =>
        have same := unverified.symm.trans (Descriptor.prepare_unverified verified)
        exact iff_of_true same fun bypassed => bypassed.2.1 other verified
      | error error =>
        have refused : ∀ other, Descriptor.prepare true signature ≠ .ok other := by
          simp [verified]
        refine iff_of_false (by simp) fun lawful => lawful ⟨verifies, refused, ?_⟩
        exact (accounted.verified signature resident).resolve_left fun passes =>
          passes.elim refused
  · rw [got, prepared]
    exact iff_of_true rfl (fresh missing)
  · rw [got, failed]
    exact iff_of_true rfl (fresh missing)

/-- After any actions on a new cache, a lookup answers as a preparation under the settings in force
would, unless layouts are verified, the signature does not pass, and it came unverified. What is
handed out for a signature that did not come so while layouts are verified, is verified: every
aggregate that the signature passes has the layout of its element. -/
theorem get_eq_prepare_iff_not_bypassed (isNew : start.cache.IsNew) (actions : List CacheAction)
    (signature : Signature) :
    (((start.actAll actions).cache.get (start.actAll actions).settings signature).1 =
        Descriptor.prepare (start.actAll actions).settings.verifyLayouts signature ↔
      ¬IsBypassed start actions signature) ∧
    ∀ descriptor, (start.actAll actions).settings.verifyLayouts = true →
      ¬CameUnverified start actions signature →
      ((start.actAll actions).cache.get (start.actAll actions).settings signature).1 =
          .ok descriptor →
        ∀ pair ∈ descriptor.passed signature, pair.1.unqualified.isAggregate = true →
          pair.1.layout? = some pair.2.layout := by
  have answers := (isAccounted_actAll isNew actions).get_eq_prepare_iff signature
  refine ⟨answers, fun descriptor verifies verified got => ?_⟩
  rw [answers.mpr fun bypassed => verified bypassed.2.2, verifies] at got
  exact (Descriptor.prepare_eq_ok_iff.mp got).2 rfl

/-- A function of one argument, a structure whose layout verification refuses. -/
def gappedSignature : Signature := ⟨⟨.none, .void⟩, [⟨.none, gappedType⟩]⟩

/-- Verification is turned off, and the signature is looked up. -/
def relaxedActions : List CacheAction :=
  [.event (.configure { verifyLayouts := false }), .event (.operate (.get gappedSignature))]

/-- Verification is turned on again. -/
def strictActions : List CacheAction := relaxedActions ++ [.event (.configure {})]

/-- The descriptor of the signature, which is prepared without verification only. -/
def gappedDescriptor : Descriptor := ⟨[.record [.integer true 1]], .void, .empty, false⟩

theorem get_strictActions :
    (((following {}).actAll strictActions).cache.get ((following {}).actAll strictActions).settings
      gappedSignature).1 = .ok gappedDescriptor := by
  with_unfolding_all rfl

theorem prepare_gappedSignature :
    Descriptor.prepare true gappedSignature =
      .error (.layoutMismatch gappedType ⟨4, 1⟩ ⟨1, 1⟩) := by
  rfl

theorem get_eq_prepare_iff_not_bypassed_strict :
    (following {}).cache.IsNew ∧
      ((following {}).actAll strictActions).settings.verifyLayouts = true ∧
      (((following {}).actAll strictActions).cache.get ((following {}).actAll strictActions).settings
        gappedSignature).1 = .ok gappedDescriptor ∧
      IsBypassed (following {}) strictActions gappedSignature := by
  have isNew : (following {}).cache.IsNew := .following {}
  have answers := get_eq_prepare_iff_not_bypassed isNew strictActions gappedSignature
  refine ⟨isNew, rfl, get_strictActions, ?_⟩
  by_contra lawful
  have same := answers.1.mpr lawful
  rw [get_strictActions] at same
  cases same.trans prepare_gappedSignature

/-- While layouts are verified, a lookup can hand out a descriptor that a preparation refuses. -/
theorem unverified_handed_out :
    ¬∀ (start : ConfiguredCache) (actions : List CacheAction) (signature : Signature)
      (descriptor : Descriptor), start.cache.IsNew →
      (start.actAll actions).settings.verifyLayouts = true →
      ((start.actAll actions).cache.get (start.actAll actions).settings signature).1 =
          .ok descriptor →
        Descriptor.prepare true signature = .ok descriptor := by
  intro verified
  have prepared := verified (following {}) strictActions gappedSignature gappedDescriptor
    (.following {}) rfl get_strictActions
  rw [prepare_gappedSignature] at prepared
  contradiction

end ConfiguredCache

end ForeignCall
