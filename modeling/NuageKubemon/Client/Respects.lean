/-
Module: NuageKubemon.Client.Respects
Purpose: Properties of whole handler runs, stated as a relation between the context a run starts
  from and the one it ends in. `Respects R x` says every run of `x` that does not panic relates
  them by `R`; for a reflexive and transitive `R` it follows the program's own structure, with one
  rule per primitive of `Handler` and one for `bind`. The later modules use it for the ACL priority
  counter and for the subnets the client holds.
Trusted boundary: none beyond that of `Client.State`.
Main exports: Respects, Respects.bind, Respects.of_call, Respects.of_modifyClient,
  Respects.of_writeClient
-/
import NuageKubemon.Client.Handlers

namespace NuageKubemon

@[simp] theorem writeClient_run (f : NuageVsdClient → Option NuageVsdClient) (ctx : Ctx) :
    writeClient f ctx = (f ctx.client).map fun c => ((), { ctx with client := c }) := by
  simp only [writeClient, bind_run, getClient_run, Option.some_bind, liftPanic_run]
  cases f ctx.client <;> rfl

/-- Every run of `x` that does not panic, from any context and with any answers from the SDN,
relates the context it starts from to the one it ends in by `R`. -/
def Respects {α : Type} (R : Ctx → Ctx → Prop) (x : Handler α) : Prop :=
  ∀ ctx a ctx', x ctx = some (a, ctx') → R ctx ctx'

namespace Respects

variable {α β : Type} {R S : Ctx → Ctx → Prop}

theorem bind [IsTrans Ctx R] {x : Handler α} {f : α → Handler β} (hx : Respects R x)
    (hf : ∀ a, Respects R (f a)) : Respects R (x >>= f) := by
  intro ctx b ctx' h
  obtain ⟨⟨a, ctx₁⟩, h₁, h₂⟩ := Option.bind_eq_some.1 h
  exact trans_of R (hx _ _ _ h₁) (hf a _ _ _ h₂)

theorem mono (hRS : ∀ ctx ctx', R ctx ctx' → S ctx ctx') {x : Handler α} (hx : Respects R x) :
    Respects S x :=
  fun ctx a ctx' h => hRS _ _ (hx ctx a ctx' h)

theorem of_pure [IsRefl Ctx R] (a : α) : Respects R (pure a : Handler α) := by
  rintro ctx _ _ ⟨⟩
  exact refl_of R ctx

theorem of_getClient [IsRefl Ctx R] : Respects R getClient := by
  rintro ctx _ _ ⟨⟩
  exact refl_of R ctx

/-- The rest of a computation after `getClient` only needs to hold on the client read. -/
theorem getClient_bind {f : NuageVsdClient → Handler α}
    (hf : ∀ ctx a ctx', f ctx.client ctx = some (a, ctx') → R ctx ctx') :
    Respects R (getClient >>= f) :=
  hf

theorem of_liftPanic [IsRefl Ctx R] (o : Option α) : Respects R (liftPanic o) := by
  intro ctx a ctx' h
  obtain ⟨_, -, ⟨⟩⟩ := Option.map_eq_some'.1 h
  exact refl_of R ctx

theorem of_failure : Respects R (failure : Handler α) := fun _ _ _ h => by cases h

/-- A call takes one answer and logs the request. -/
theorem of_call {req : Request}
    (h : ∀ ctx, R ctx { ctx with replies := ctx.replies.tail, sent := ctx.sent ++ [req] }) :
    Respects R (call req) := by
  intro ctx r ctx' hc
  rw [call_run, Option.some.injEq, Prod.mk.injEq] at hc
  exact hc.2 ▸ h ctx

theorem of_modifyClient {f : NuageVsdClient → NuageVsdClient}
    (h : ∀ ctx, R ctx { ctx with client := f ctx.client }) : Respects R (modifyClient f) := by
  rintro ctx _ _ ⟨⟩
  exact h ctx

theorem of_writeClient {f : NuageVsdClient → Option NuageVsdClient}
    (h : ∀ ctx c, f ctx.client = some c → R ctx { ctx with client := c }) :
    Respects R (writeClient f) := by
  intro ctx a ctx' hw
  obtain ⟨c, hc, ⟨⟩⟩ := Option.map_eq_some'.1 ((writeClient_run f ctx).symm.trans hw)
  exact h ctx c hc

/-- A map write `m[k] = v` into one field of the client, which panics on a nil map. -/
theorem of_writeClient_map {γ : Type} {f : NuageVsdClient → Option γ}
    {g : NuageVsdClient → γ → NuageVsdClient}
    (h : ∀ ctx b, R ctx { ctx with client := g ctx.client b }) :
    Respects R (writeClient fun c => (f c).map (g c)) :=
  of_writeClient fun ctx _ hc => by obtain ⟨b, -, rfl⟩ := Option.map_eq_some'.1 hc; exact h ctx b

end Respects

end NuageKubemon
