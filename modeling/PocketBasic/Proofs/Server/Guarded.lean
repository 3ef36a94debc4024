import Mathlib
import PocketBasic.Access.HashedPassword
import PocketBasic.Access.SignedToken
import PocketBasic.Proofs.Library.Keyed
import PocketBasic.Server.Handle
import PocketBasic.Text.Cluster

/-!
# The guard of the library

All that a request can do to the library is listed by `Effect`: without the administrator's password it
does nothing, and with it one program is saved or deleted.
-/

namespace PocketBasic

open Web (Request Response)

namespace Server

open Library (Store Draft Item normalize?)

variable {v : Server} {m : Moment} {r : Request} {s : Store}

/-- A request carries a password that is the administrator's. -/
def IsAdmin (a : Access.Administrator) (r : Request) : Prop :=
  r.header Access.adminHeader ≠ "" ∧ a.check (r.header Access.adminHeader) = .ok ()

theorem not_isAdmin_of_noHash {a : Access.Administrator} (hnone : a.hash = "") (r : Request) :
    ¬ IsAdmin a r := by
  rintro ⟨-, hcheck⟩
  have hempty : a.hash.isEmpty = true := by rw [hnone]; rfl
  rw [Access.Administrator.check, if_pos hempty] at hcheck
  cases hcheck

theorem isAdmin_of_denial? {a : Access.Administrator} (h : a.denial? r = none) : IsAdmin a r := by
  unfold Access.Administrator.denial? at h
  simp only at h
  split at h
  · cases h
  · next hgiven =>
    refine ⟨fun hempty => hgiven (by rw [hempty]; rfl), ?_⟩
    split at h
    · next hcheck => exact hcheck
    · cases h
    · cases h

/-- The program that a request to the library names to have it saved or deleted. -/
def named? (r : Request) : Option String :=
  match route? (pathOf r) with
  | some .programs => (Library.Api.draft? r.body).bind fun d => normalize? d.name
  | some (.program text) => normalize? text
  | _ => none

inductive Effect (v : Server) (m : Moment) (r : Request) : Store → Prop
  | nothing : Effect v m r v.store
  | saved {d : Draft} {name : String} {s' : Store} {item : Item} (admin : IsAdmin v.admin r)
      (named : named? r = some name) (normal : normalize? d.name = some name)
      (done : v.store.save d m.second = .ok (s', item)) : Effect v m r s'
  | deleted {text name : String} {s' : Store} (admin : IsAdmin v.admin r)
      (named : named? r = some name) (normal : normalize? text = some name)
      (done : v.store.delete text = .ok s') : Effect v m r s'

/-! ### Requests that are not for the library -/

def guarded (v : Server) : Access.Administrator × Store := (v.admin, v.store)

theorem guarded_closeConnection (v : Server) (client code : Nat) (now : Int) :
    (v.closeConnection client code now).guarded = v.guarded := by
  unfold closeConnection
  split <;> rfl

theorem guarded_connect (v : Server) (s : Session) (address : String) (now : Int) :
    (v.connect s address now).1.guarded = v.guarded := by
  have hopen : (v.openConnection s address now).1.guarded = v.guarded := rfl
  unfold connect
  simp only
  split
  · rw [guarded_closeConnection, hopen]
  · exact hopen

theorem guarded_createSession [Text.Typeface] (v : Server) (m : Moment) (r : Request) :
    (v.createSession m r).1.guarded = v.guarded := by
  unfold createSession
  simp only
  split
  · rfl
  · split <;> rfl

theorem guarded_endSession (v : Server) (m : Moment) (claims : Access.Claims) :
    (v.endSession m claims).1.guarded = v.guarded := by
  unfold endSession
  cases v.clients.client? claims.sessionId with
  | none =>
    simp only
    split <;> rfl
  | some client =>
    have hclosed := guarded_closeConnection v client closedNormally m.now
    simp only
    split
    · exact hclosed
    · exact hclosed

theorem guarded_handleSession [Text.Typeface] (v : Server) (m : Moment) (r : Request) :
    (v.handleSession m r).1.guarded = v.guarded := by
  unfold handleSession
  split
  · exact guarded_createSession v m r
  · split
    · split
      · exact guarded_endSession v m _
      · rfl
    · rfl

theorem guarded_connectSession (v : Server) (m : Moment) (r : Request) (claims : Access.Claims) :
    (v.connectSession m r claims).1.guarded = v.guarded := by
  unfold connectSession
  split
  · rfl
  · simp only
    split
    · rfl
    · exact guarded_connect _ _ _ _

theorem guarded_handleConnection (v : Server) (m : Moment) (r : Request) :
    (v.handleConnection m r).1.guarded = v.guarded := by
  unfold handleConnection
  split
  · rfl
  · split
    · exact guarded_connectSession v m r _
    · rfl

theorem guarded_forSites (methods : String) (v : Server) (r : Request) (answer : Server × Response)
    (h : answer.1.guarded = v.guarded) : (forSites methods v r answer).1.guarded = v.guarded := by
  unfold forSites
  split
  · rfl
  · exact h

/-! ### Requests for the library -/

theorem effect_save (hnamed : ∀ d, Library.Api.draft? r.body = some d → named? r = normalize? d.name)
    (hadmin : IsAdmin v.admin r) : Effect v m r (Library.Api.save v.store r.body m.second).1 := by
  unfold Library.Api.save
  split
  · exact .nothing
  · next d hdraft =>
    split
    · next s' item hsave =>
      obtain ⟨name, -, hname, -⟩ := Store.eq_put_of_save hsave
      exact .saved hadmin ((hnamed d hdraft).trans hname) hname hsave
    · exact .nothing
    · exact .nothing

theorem effect_delete {text : String} (hnamed : named? r = normalize? text)
    (hadmin : IsAdmin v.admin r) : Effect v m r (Library.Api.delete v.store text).1 := by
  unfold Library.Api.delete
  split
  · next s' hdelete =>
    obtain ⟨name, -, hname, -⟩ := Store.eq_erase_of_delete hdelete
    exact .deleted hadmin (hnamed.trans hname) hname hdelete
  · exact .nothing

theorem effect_asAdmin {action : Store × Response} (h : IsAdmin v.admin r → Effect v m r action.1) :
    Effect v m r (Library.Api.asAdmin v.admin r v.store action).1 := by
  unfold Library.Api.asAdmin
  split
  · exact .nothing
  · next hdenial => exact h (isAdmin_of_denial? hdenial)

theorem effect_collection (hroute : route? (pathOf r) = some .programs) :
    Effect v m r (Library.Api.collection v.admin v.store r m.second).1 := by
  unfold Library.Api.collection
  split
  · exact .nothing
  · split
    · refine effect_asAdmin (effect_save fun d hdraft => ?_)
      simp only [named?, hroute, hdraft, Option.bind_some]
    · exact .nothing

theorem effect_item {text : String} (hroute : route? (pathOf r) = some (.program text)) :
    Effect v m r (Library.Api.item v.admin v.store r text).1 := by
  unfold Library.Api.item
  split
  · exact .nothing
  · split
    · exact effect_asAdmin (effect_delete (by simp only [named?, hroute]))
    · exact .nothing

theorem effect_forSites {methods : String} {x : Store × Response} (h : Effect v m r x.1) :
    Effect v m r (forSites methods v r (v.withStore x)).1.store := by
  unfold forSites
  split
  · exact .nothing
  · exact h

theorem Effect.of_guarded {w : Server} (h : w.guarded = v.guarded) : Effect v m r w.store := by
  rw [(Prod.mk.inj h).2]
  exact .nothing

theorem handle_effect [Text.Typeface] (v : Server) (m : Moment) (r : Request) :
    Effect v m r (v.handle m r).1.store ∧ (v.handle m r).1.admin = v.admin := by
  unfold handle
  simp only
  split
  · exact ⟨.nothing, rfl⟩
  · split
    · next route hroute =>
      cases route with
      | programs =>
        refine ⟨effect_forSites (effect_collection hroute), ?_⟩
        simp only [handleRoute, forSites]
        split <;> rfl
      | program text =>
        refine ⟨effect_forSites (effect_item hroute), ?_⟩
        simp only [handleRoute, forSites]
        split <;> rfl
      | session =>
        have hkept := guarded_forSites "POST, DELETE" v r _ (guarded_handleSession v m r)
        exact ⟨.of_guarded hkept, (Prod.mk.inj hkept).1⟩
      | connection =>
        have hkept := guarded_handleConnection v m r
        exact ⟨.of_guarded hkept, (Prod.mk.inj hkept).1⟩
    · exact ⟨.nothing, rfl⟩

/-! ### Effects -/

theorem Effect.eq_of_not_isAdmin (h : Effect v m r s) (hadmin : ¬ IsAdmin v.admin r) :
    s = v.store := by
  cases h with
  | nothing => rfl
  | saved admin => exact absurd admin hadmin
  | deleted admin => exact absurd admin hadmin

theorem Effect.others (h : Effect v m r s) (hkeyed : v.store.Keyed) :
    s.others (named? r) = v.store.others (named? r) := by
  cases h with
  | nothing => rfl
  | saved admin named normal done =>
    obtain ⟨name, -, hname, -, -, hput⟩ := Store.eq_put_of_save done
    cases normal.symm.trans hname
    rw [named, ← Store.others_put hkeyed, hput]
  | deleted admin named normal done =>
    obtain ⟨name, -, hname, -, rfl⟩ := Store.eq_erase_of_delete done
    cases normal.symm.trans hname
    rw [named, Store.others_erase]

theorem Effect.keyed (h : Effect v m r s) (hkeyed : v.store.Keyed) : s.Keyed := by
  cases h with
  | nothing => exact hkeyed
  | @saved d _ _ _ admin named normal done =>
    obtain ⟨name, -, -, -, -, hput⟩ := Store.eq_put_of_save done
    have hput' := Store.keyed_put hkeyed name d m.second
    rwa [hput] at hput'
  | deleted admin named normal done =>
    obtain ⟨name, -, -, -, rfl⟩ := Store.eq_erase_of_delete done
    exact Store.keyed_erase hkeyed name

/-! ### Sequences of requests -/

def serve [Text.Typeface] (v : Server) (calls : List (Moment × Request)) : Server :=
  calls.foldl (fun v call => (v.handle call.1 call.2).1) v

theorem serve_keyed [Text.Typeface] (h : v.store.Keyed) (calls : List (Moment × Request)) :
    (v.serve calls).store.Keyed := by
  induction calls generalizing v with
  | nil => exact h
  | cons call calls ih => exact ih ((handle_effect v call.1 call.2).1.keyed h)

theorem serve_of_not_isAdmin [Text.Typeface] (calls : List (Moment × Request))
    (h : ∀ call ∈ calls, ¬ IsAdmin v.admin call.2) : (v.serve calls).store = v.store := by
  induction calls generalizing v with
  | nil => rfl
  | cons call calls ih =>
    obtain ⟨heffect, hstays⟩ := handle_effect v call.1 call.2
    have hfirst := heffect.eq_of_not_isAdmin (h call List.mem_cons_self)
    have hrest := ih (v := (v.handle call.1 call.2).1) fun c hc => by
      rw [hstays]
      exact h c (List.mem_cons_of_mem call hc)
    exact hrest.trans hfirst

/-- Only the administrator changes the library. Requests without an accepted password leave it as it is,
as do all requests if no hash is configured, and any request leaves all programs but the one it names. -/
theorem library_guarded [Text.Typeface] (v : Server) (calls : List (Moment × Request)) :
    ((∀ call ∈ calls, ¬ IsAdmin v.admin call.2) → (v.serve calls).store = v.store) ∧
      (v.admin.hash = "" → (v.serve calls).store = v.store) ∧
      (v.store.Keyed → ∀ m r, ((v.serve calls).handle m r).1.store.others (named? r) =
        (v.serve calls).store.others (named? r)) := by
  refine ⟨serve_of_not_isAdmin calls, fun hhash => ?_, fun h m r => ?_⟩
  · exact serve_of_not_isAdmin calls fun call _ => not_isAdmin_of_noHash hhash call.2
  · exact (handle_effect _ m r).1.others (serve_keyed h calls)

/-- Without a hash nobody deletes a program, whatever password is given. -/
theorem library_guarded_noHash :
    let v : Server :=
      { settings := {}
        signer := ⟨.standard, ""⟩
        admin := ⟨"", .standard⟩
        handshake := .standard
        store := (Store.put {} "A" ⟨"A", "", "Disp 1"⟩ 0).1
        sessions :=
          { limit := 0
            idleLimit := 0
            keys := .builtin
            stepsPerTick := 1
            dice := ⟨fun _ => 0, 0⟩ } }
    let delete : Request :=
      { method := "DELETE"
        target := { path := "/api/programs/A".toList }
        headers := [(Access.adminHeader, "secret")]
        peer := "" }
    let w := v.serve [(⟨0, ""⟩, delete)]
    v.admin.hash = "" ∧ v.store.Keyed ∧ w.store = v.store ∧
      (w.handle ⟨1, ""⟩ delete).1.store.others (named? delete) = w.store.others (named? delete) := by
  intro v delete w
  have hkeyed : v.store.Keyed := Store.keyed_put Store.keyed_empty "A" ⟨"A", "", "Disp 1"⟩ 0
  obtain ⟨-, hnoHash, hothers⟩ := library_guarded v [(⟨0, ""⟩, delete)]
  exact ⟨rfl, hkeyed, hnoHash rfl, hothers hkeyed ⟨1, ""⟩ delete⟩

end Server

end PocketBasic
