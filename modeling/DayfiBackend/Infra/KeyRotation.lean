import DayfiBackend.Found.Midway
import DayfiBackend.Infra.ApiKeyScope

/-!
# Rotated keys

A key that has been rotated is dead. The requests that are under way may go on with it, for a key is
looked up once; but no request that begins after the rotation has been answered is let in with it,
whatever else runs beside it (`rotated_key_retired`).
-/

namespace DayfiBackend.Infra.ApiKeys

open DayfiBackend.Found DayfiBackend.Found.Prog DayfiBackend.Found.Keys

/-! ### Once a key is revoked -/

/-- Keys stay, and one is revoked. -/
def retiredDiscipline (keyId : String) : Discipline KeySql (Except AccessError Outside) Tables where
  inv := Revoked keyId
  rely _ := Later
  cond _ _ _ _ := True
  good _ _ _ s _ t := Later s t
  rely_refl _ := Later.refl
  rely_trans _ _ _ _ := Later.trans

/-- A key that is not the one has the hash. -/
def Elsewhere (keyId keyHash : String) (s : Tables) : Prop :=
  ∃ k ∈ s.keys, k.keyHash = keyHash ∧ k.id ≠ keyId

section retired

variable {S : Secrets} {keyId keyHash : String} {i : ℕ}

theorem Elsewhere.later {s t : Tables} (he : Elsewhere keyId keyHash s) (hl : Later s t) :
    Elsewhere keyId keyHash t := by
  obtain ⟨k, hk, hhash, hid⟩ := he
  obtain ⟨k', hk', heq, -⟩ := hl k hk
  obtain ⟨hid', -, -, hhash'⟩ := lasting_fields heq
  exact ⟨k', hk', hhash'.trans hhash, hid' ▸ hid⟩

theorem retired_open (keyId : String) : (retiredDiscipline keyId).Open access.machine := by
  constructor
  intro β i st o s b t hinv _ he
  rcases Backend.exec_cases he with ⟨e, -, -, rfl⟩ | ⟨o', -, -, rfl⟩
  · exact ⟨.refl t, hinv, fun _ => .refl t⟩
  · have hl : Later s (access.run i st o' s).2 := (act_leaves st o' { s with now := o'.now }).later
    exact ⟨hl, hinv.later hl, fun _ => hl⟩

/-- What is found of the hash stays, whatever is called. -/
theorem triple_elsewhere {α : Type} (p : KeyCall α) :
    Triple access.machine (retiredDiscipline keyId) i (Elsewhere keyId keyHash) p
      (fun _ => Elsewhere keyId keyHash) fun _ => Elsewhere keyId keyHash := by
  have hp : OnlyE (fun _ => True) p := by
    unfold OnlyE
    exact Prog.only_true p.run
  refine Triple.of_only hp ?_
  intro β st _ s hs t hl hinv o hc b u he
  obtain ⟨hgood, hinv', hrely⟩ := (retired_open keyId).step i st o t b u hinv hc he
  exact ⟨hgood, hinv', fun j _ => hrely j, (hs.later hl).later hgood⟩

/-- A revoked key is not found. -/
theorem triple_authenticate_retired (secret : String) :
    Triple access.machine (retiredDiscipline keyId) i (fun _ => True)
      (authenticateApiKey S secret)
      (fun r s => r ≠ none → Elsewhere keyId (S.hashApiKey (trim secret)) s) fun _ _ => True := by
  unfold authenticateApiKey
  refine Triple.ite (fun _ => Triple.pure fun _ _ h => absurd rfl h) fun _ => ?_
  refine Triple.bind (R := fun found s => found ≠ none →
      Elsewhere keyId (S.hashApiKey (trim secret)) s)
    (Backend.triple_call (fun _ => rfl) (fun _ _ _ _ => trivial)
      (fun s e _ _ => ⟨.refl s, trivial⟩) fun s o _ hinv _ => ?_) fun found => ?_
  · refine ⟨.refl s, hinv, fun _ _ => .refl s, fun hne => ?_⟩
    obtain ⟨x, hx⟩ := Option.ne_none_iff_exists'.mp hne
    obtain ⟨k, hk, -⟩ := Option.map_eq_some_iff.mp hx
    obtain ⟨hmem, hhash, hactive⟩ := mem_of_findByHash hk
    refine ⟨k, hmem, hhash, fun hid => ?_⟩
    obtain ⟨k', hk', hid', hrevoked⟩ := hinv
    obtain rfl := List.inj_on_of_nodup_map s.uniqueKeys hk' hmem (hid'.trans hid.symm)
    rw [hactive] at hrevoked
    exact absurd hrevoked Bool.false_ne_true
  · cases found with
    | none => exact Triple.pure fun _ _ h => absurd rfl h
    | some found =>
        exact (triple_elsewhere _).mono (fun s hs => hs (Option.some_ne_none found))
          (fun _ _ h _ => h) fun _ _ _ => trivial

/-- Who is let in with a key is let in with another one. -/
theorem triple_letIn_retired {h : Headers} (hkey : isApiKeySecret (bearer h.authorization) = true) :
    Triple access.machine (retiredDiscipline keyId) i (fun _ => True) (letIn S h)
      (fun _ => Elsewhere keyId (S.hashApiKey (trim (bearer h.authorization))))
      fun _ _ => True := by
  unfold letIn
  refine Triple.bind (R := fun _ => Elsewhere keyId (S.hashApiKey (trim (bearer h.authorization))))
    ?_ fun r => (triple_elsewhere _).mono (fun _ hs => hs) (fun _ _ h => h) fun _ _ _ => trivial
  unfold infraAuthMiddleware
  refine Triple.ite (fun _ => Triple.throw fun _ _ => trivial) fun _ => ?_
  rw [if_pos hkey]
  refine Triple.bind (triple_authenticate_retired _) fun found => ?_
  cases found with
  | none => exact Triple.throw fun _ _ => trivial
  | some x => exact Triple.pure fun s hs => hs (Option.some_ne_none x)

end retired

/-! ### Every run -/

section runs

variable (S : Secrets) (T : Tables) (requests : List Request)

/-- **A rotated key is dead**: no request that begins after the rotation is let in with it. -/
theorem rotated_key_retired (before after : List (ℕ × Except AccessError Outside)) {i j : ℕ}
    {h h' : Headers} {r' : Route} {keyId : String} {a : Admitted} {x : Reply}
    (hrotate : requests[j]? = some (.route h (.apiKeysRotate keyId)))
    (hdone : ((begun S T requests).run access.machine before).procs[j]? =
      some (.ret (.replied a (.ok x))))
    (hi : requests[i]? = some (.route h' r')) (hlate : ∀ e ∈ before, e.1 ≠ i)
    (hkey : isApiKeySecret (bearer h'.authorization) = true)
    (hown : ∀ k ∈ ((begun S T requests).run access.machine (before ++ after)).store.keys,
      k.keyHash = S.hashApiKey (trim (bearer h'.authorization)) → k.id = keyId)
    (a' : Admitted) (reply : Ans Reply) :
    ((begun S T requests).run access.machine (before ++ after)).procs[i]? ≠
      some (.ret (.replied a' reply)) := by
  intro hin
  rw [Pool.run_append] at hin hown
  have hbefore := (run_verified S T requests before).1
  have hrevoked : Revoked keyId ((begun S T requests).run access.machine before).store := by
    obtain ⟨s, hs, hl⟩ := hbefore.result hdone
    exact (((hs h _ a (.ok x) hrotate rfl).2 x rfl).rotated keyId rfl).later hl
  have hproc : ((begun S T requests).run access.machine before).procs[i]? =
      some (Request.program S (.route h' r')) := by
    rw [Pool.run_untouched before _ hlate]
    exact (List.getElem?_map ..).trans (by rw [hi]; rfl)
  have hmid : Pool.Verified access.machine (retiredDiscipline keyId)
      (fun n outcome s => n = i → ∀ a reply, outcome = .replied a reply →
        Elsewhere keyId (S.hashApiKey (trim (bearer h'.authorization))) s)
      ((begun S T requests).run access.machine before) := by
    refine Pool.Verified.midway (retired_open keyId) hrevoked hproc ?_
      fun n _ _ hne heq => absurd heq hne
    refine (wp_bind _ _ _ _).mpr (wp_mono (fun admitted t ht => ?_) _ _
      (triple_letIn_retired hkey _ trivial))
    cases admitted with
    | error e => exact (wp_ret _ _ _ _ _ _).mpr fun _ _ _ h => by cases h
    | ok a =>
        refine (wp_bind _ _ _ _).mpr (wp_mono (fun reply u hu => ?_) _ _
          (triple_elsewhere (r'.call S a) t ht))
        refine (wp_ret _ _ _ _ _ _).mpr fun _ _ _ _ => ?_
        cases reply with
        | ok _ => exact hu
        | error _ => exact hu
  have hend := (Pool.run_sound hmid after
    (Pool.along_of_forall _ (fun P e => by unfold Pool.CondAt; split <;> trivial) _ _)).1
  obtain ⟨s, hs, hl⟩ := hend.result hin
  obtain ⟨k, hk, hhash, hid⟩ := (hs rfl a' reply rfl).later hl
  exact hid (hown k hk hhash)

/-- What a request has come to. -/
def outcomeOf : Prog KeySql Outcome → Option Outcome
  | .ret outcome => some outcome
  | .act .. => none

theorem eq_ret_of_outcomeOf {p : Option (Prog KeySql Outcome)} {outcome : Outcome}
    (h : p.bind outcomeOf = some outcome) : p = some (.ret outcome) := by
  obtain ⟨q, rfl, hq⟩ := Option.bind_eq_some_iff.mp h
  cases q with
  | ret outcome' => rw [Option.some.inj hq]
  | act _ _ => cases hq

/-- Secrets that are their own hashes, and Ada's session. -/
def plainSecrets : Secrets where
  hashApiKey secret := secret
  decodeInfraToken token :=
    if token = "ada" then some ⟨"m1", some "acme", "ada@acme.com", "admin"⟩ else none

/-- Acme has one key. -/
def acmeTables : Tables where
  organizations id := if id = "acme" then some .unverified else none
  members := [⟨"m1", "ada@acme.com", "admin"⟩]
  keys := [{
    id := "k1", orgId := "acme", environment := .test, name := "API key"
    keyHash := "sk_test_01", keyPrefix := "sk_test_", lastFour := "01", createdBy := some "m1"
    createdAt := 0 }]

/-- Ada rotates the key, and someone has its secret. -/
def rotation : List Request :=
  [.route ⟨"Bearer ada", none⟩ (.apiKeysRotate "k1"),
    .route ⟨"Bearer sk_test_01", none⟩ .apiKeysList]

/-- The rotation, from its first statement to its last. -/
def rotationSteps : List (ℕ × Except AccessError Outside) :=
  List.replicate 6 (0, .ok { newId := "k2", bytes := "02", now := 5 })

/-- Who Ada's keys and her session speak for. -/
def acme : Admitted := ⟨⟨"m1", some "acme", "ada@acme.com", "admin"⟩, "acme", .test⟩

theorem rotation_done :
    ((begun plainSecrets acmeTables rotation).run access.machine rotationSteps).procs[0]? =
      some (.ret (.replied acme (.ok (.created
        ⟨"k2", "Rotated key", "sk_test_", "02", "sk_test_02", 5, "ada@acme.com"⟩)))) :=
  eq_ret_of_outcomeOf (by decide +kernel)

/-- The old secret lists no keys any more. -/
theorem old_secret_is_dead :
    ((begun plainSecrets acmeTables rotation).run access.machine
      (rotationSteps ++ [(1, .ok {})])).procs[1]? ≠
        some (.ret (.replied acme (.ok (.keys [])))) :=
  rotated_key_retired plainSecrets acmeTables rotation rotationSteps [(1, .ok {})]
    (show rotation[0]? = some (.route ⟨"Bearer ada", none⟩ (.apiKeysRotate "k1")) from rfl)
    rotation_done
    (show rotation[1]? = some (.route ⟨"Bearer sk_test_01", none⟩ .apiKeysList) from rfl)
    (by decide) (by decide +kernel) (by decide +kernel) acme (.ok (.keys []))

end runs

end DayfiBackend.Infra.ApiKeys
