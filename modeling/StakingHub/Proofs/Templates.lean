import StakingHub.Service.Config
import StakingHub.Proofs.Checksum
import StakingHub.Proofs.PersonalMessages

/-!
# Login and registration messages

A node signs a login message rendered from `nonce: {nonce}` and a newline, then
`address: {address}`, and a registration message rendered from `{email}:{address}` (older
generation) or `email: {email}` and a newline, then `node: {address}` (current generation).
Rendering replaces the first placeholder everywhere and then `{address}` everywhere, so an
`{address}` that the nonce or the email brings in is filled as well.

No occurrence of `{address}` can span the newline or the colon before the last placeholder,
since neither character is in it; the rendered text is therefore the literal, the filled
nonce or email, the literal, and the checksum address (`loginMessage_toList`,
`registerMessage_v2_toList`, `registerMessage_v3_toList`). For the current generation the two
messages differ in their first character. For the older one, the registration message may
begin with anything the email brings, but both messages end in a checksum address of 42
characters, after a space in the one and a colon in the other. So no login message is a
registration message, and their personal-message preimages differ as well.
-/

namespace StakingHub.Text

/-! ### Replacing a pattern, step by step -/

theorem replaceText_toList (text pattern replacement : String) :
    (replaceText text pattern replacement).toList =
      replaceAll text.toList pattern.toList replacement.toList :=
  String.toList_ofList

variable {p : Char} {ps r : List Char}

theorem replaceAll_go_fuel {fuel fuel' : Nat} {rest : List Char} (enough : rest.length ≤ fuel)
    (enough' : rest.length ≤ fuel') :
    replaceAll.go r p ps fuel rest = replaceAll.go r p ps fuel' rest := by
  induction fuel generalizing fuel' rest with
  | zero =>
    rw [List.length_eq_zero_iff.mp (Nat.le_zero.mp enough)]
    cases fuel' <;> rfl
  | succ fuel ih =>
    cases rest with
    | nil => cases fuel' <;> rfl
    | cons c cs =>
      obtain ⟨fuel', rfl⟩ : ∃ f, fuel' = f + 1 := ⟨fuel' - 1, by simp at enough'; omega⟩
      simp only [replaceAll.go]
      simp only [List.length_cons] at enough enough'
      split
      · rw [@ih fuel' ((c :: cs).drop (ps.length + 1)) (by simp; omega) (by simp; omega)]
      · rw [@ih fuel' cs (by omega) (by omega)]

theorem replaceAll_nil (pattern r : List Char) : replaceAll [] pattern r = [] := by
  cases pattern <;> rfl

theorem replaceAll_cons (c : Char) (cs : List Char) :
    replaceAll (c :: cs) (p :: ps) r =
      if (c :: cs).take (ps.length + 1) = p :: ps then
        r ++ replaceAll ((c :: cs).drop (ps.length + 1)) (p :: ps) r
      else c :: replaceAll cs (p :: ps) r := by
  simp only [replaceAll, List.length_cons, replaceAll.go]
  split
  · rw [replaceAll_go_fuel (by simp) (Nat.le_refl _)]
  · rfl

theorem replaceAll_cons_of_ne {c : Char} (cs : List Char) (other : c ≠ p) :
    replaceAll (c :: cs) (p :: ps) r = c :: replaceAll cs (p :: ps) r := by
  rw [replaceAll_cons, if_neg (by simp [other])]

theorem replaceAll_append_of_forall_ne {u : List Char} (v : List Char) (other : ∀ c ∈ u, c ≠ p) :
    replaceAll (u ++ v) (p :: ps) r = u ++ replaceAll v (p :: ps) r := by
  induction u with
  | nil => rfl
  | cons c u ih =>
    rw [List.cons_append, replaceAll_cons_of_ne _ (other c (by simp)),
      ih (fun d mem => other d (by simp [mem])), List.cons_append]

theorem replaceAll_pattern_append (v : List Char) :
    replaceAll ((p :: ps) ++ v) (p :: ps) r = r ++ replaceAll v (p :: ps) r := by
  rw [List.cons_append, replaceAll_cons, if_pos (by simp), ← List.cons_append,
    List.drop_left' (by simp)]

theorem take_append_cons_eq_iff {w v pat : List Char} {c : Char} (barrier : c ∉ pat) :
    (w ++ c :: v).take pat.length = pat ↔ w.take pat.length = pat := by
  constructor
  · intro starts
    by_cases within : pat.length ≤ w.length
    · rwa [List.take_append_of_le_length within] at starts
    · -- a window reaching past `w` would hold the barrier
      exfalso
      apply barrier
      rw [← starts, List.take_append]
      apply List.mem_append_right
      rw [List.take_cons (by omega)]
      exact List.mem_cons_self
  · intro starts
    have within : pat.length ≤ w.length := by
      have := congrArg List.length starts
      rw [List.length_take] at this
      omega
    rwa [List.take_append_of_le_length within]

theorem replaceAll_pattern : replaceAll (p :: ps) (p :: ps) r = r := by
  have whole := @replaceAll_pattern_append p ps r []
  rwa [List.append_nil, replaceAll_nil, List.append_nil] at whole

theorem replaceAll_append_of_not_mem {c : Char} (u v : List Char) (barrier : c ∉ p :: ps) :
    replaceAll (u ++ c :: v) (p :: ps) r =
      replaceAll u (p :: ps) r ++ replaceAll (c :: v) (p :: ps) r := by
  induction h : u.length using Nat.strongRecOn generalizing u with
  | _ n ih =>
    cases u with
    | nil => rw [replaceAll_nil, List.nil_append, List.nil_append]
    | cons x w =>
      have window := take_append_cons_eq_iff (w := x :: w) (v := v) barrier
      simp only [List.length_cons] at window
      rw [List.cons_append, replaceAll_cons x, ← List.cons_append, replaceAll_cons x w]
      by_cases starts : (x :: w).take (ps.length + 1) = p :: ps
      · -- the match lies before the barrier; replacing goes on after it
        have within : ps.length + 1 ≤ (x :: w).length := by
          have := congrArg List.length starts
          rw [List.length_take] at this
          simp only [List.length_cons] at this ⊢
          omega
        rw [if_pos (window.mpr starts), if_pos starts, List.drop_append_of_le_length within,
          ih _ (by rw [← h, List.length_drop]; simp only [List.length_cons]; omega) _ rfl,
          List.append_assoc]
      · rw [if_neg (mt window.mp starts), if_neg starts,
          ih w.length (by simp at h; omega) w rfl, List.cons_append]

theorem replaceAll_replaceAll_template {lit₁ lit₂ x y : List Char} {q b : Char} {qs : List Char}
    (first : ∀ c ∈ lit₁, c ≠ p ∧ c ≠ q) (barrier : b ∉ q :: qs) (second : ∀ c ∈ lit₂, c ≠ q)
    (kept : replaceAll (b :: lit₂ ++ q :: qs) (p :: ps) x = b :: lit₂ ++ q :: qs) :
    replaceAll (replaceAll (lit₁ ++ (p :: ps) ++ (b :: lit₂) ++ (q :: qs)) (p :: ps) x)
        (q :: qs) y =
      lit₁ ++ replaceAll x (q :: qs) y ++ (b :: lit₂) ++ y := by
  have filled : replaceAll (lit₁ ++ (p :: ps) ++ (b :: lit₂) ++ (q :: qs)) (p :: ps) x =
      lit₁ ++ (x ++ (b :: lit₂ ++ q :: qs)) := by
    rw [List.append_assoc, List.append_assoc,
      replaceAll_append_of_forall_ne _ (fun c mem => (first c mem).1), replaceAll_pattern_append,
      kept]
  have tail : replaceAll (b :: lit₂ ++ q :: qs) (q :: qs) y = b :: lit₂ ++ y := by
    have noStart : ∀ c ∈ b :: lit₂, c ≠ q := by
      intro c mem
      rcases List.mem_cons.mp mem with rfl | mem
      · exact fun same => barrier (by simp [same])
      · exact second c mem
    rw [replaceAll_append_of_forall_ne _ noStart, replaceAll_pattern]
  rw [filled, replaceAll_append_of_forall_ne _ (fun c mem => (first c mem).2), List.cons_append,
    replaceAll_append_of_not_mem _ _ barrier, ← List.cons_append, tail, List.append_assoc,
    List.append_assoc]

end StakingHub.Text

namespace StakingHub

/-! ### The rendered messages -/

theorem Address.length_checksum (a : Address) : a.checksum.toList.length = 42 := by
  obtain ⟨cs, written, length, -⟩ := Address.checksum_spec a
  rw [written, String.toList_append, List.length_append, String.toList_ofList (l := cs), length]
  rfl

theorem noncePlaceholder_toList : noncePlaceholder.toList = '\x7b' :: "nonce\x7d".toList := rfl

theorem emailPlaceholder_toList : emailPlaceholder.toList = '\x7b' :: "email\x7d".toList := rfl

theorem addressPlaceholder_toList :
    addressPlaceholder.toList = '\x7b' :: "address\x7d".toList := rfl

theorem Generation.login_toList (g : Generation) :
    g.templates.login.toList =
      "nonce: ".toList ++ noncePlaceholder.toList ++ ('\n' :: "address: ".toList) ++
        addressPlaceholder.toList := by
  simp only [Generation.templates, String.toList_append]
  rfl

theorem Generation.register_v2_toList :
    Generation.v2.templates.register.toList =
      [] ++ emailPlaceholder.toList ++ [':'] ++ addressPlaceholder.toList := by
  simp only [Generation.templates, String.toList_append]
  rfl

theorem Generation.register_v3_toList :
    Generation.v3.templates.register.toList =
      "email: ".toList ++ emailPlaceholder.toList ++ ('\n' :: "node: ".toList) ++
        addressPlaceholder.toList := by
  simp only [Generation.templates, String.toList_append]
  rfl

namespace Templates

open Text

theorem loginMessage_toList (g : Generation) (nonce : String) (node : Address) :
    (g.templates.loginMessage nonce node).toList =
      "nonce: ".toList ++ replaceAll nonce.toList addressPlaceholder.toList node.checksum.toList ++
        "\naddress: ".toList ++ node.checksum.toList := by
  rw [loginMessage, replaceText_toList, replaceText_toList, Generation.login_toList,
    noncePlaceholder_toList, addressPlaceholder_toList]
  refine replaceAll_replaceAll_template ?_ ?_ ?_ rfl
  all_goals simp

theorem registerMessage_v2_toList (email : String) (node : Address) :
    (Generation.v2.templates.registerMessage email node).toList =
      replaceAll email.toList addressPlaceholder.toList node.checksum.toList ++ ":".toList ++
        node.checksum.toList := by
  rw [registerMessage, replaceText_toList, replaceText_toList, Generation.register_v2_toList,
    emailPlaceholder_toList, addressPlaceholder_toList]
  refine replaceAll_replaceAll_template ?_ ?_ ?_ rfl
  all_goals simp

theorem registerMessage_v3_toList (email : String) (node : Address) :
    (Generation.v3.templates.registerMessage email node).toList =
      "email: ".toList ++ replaceAll email.toList addressPlaceholder.toList node.checksum.toList ++
        "\nnode: ".toList ++ node.checksum.toList := by
  rw [registerMessage, replaceText_toList, replaceText_toList, Generation.register_v3_toList,
    emailPlaceholder_toList, addressPlaceholder_toList]
  refine replaceAll_replaceAll_template ?_ ?_ ?_ rfl
  all_goals simp

theorem loginMessage_ne_registerMessage (g : Generation) (nonce email : String) (a b : Address) :
    g.templates.loginMessage nonce a ≠ g.templates.registerMessage email b := by
  intro same
  have lists := congrArg String.toList same
  cases g with
  | v2 =>
    rw [loginMessage_toList, registerMessage_v2_toList] at lists
    have lengths : a.checksum.toList.length = b.checksum.toList.length := by
      rw [Address.length_checksum, Address.length_checksum]
    have before := congrArg List.getLast? (List.append_inj' lists lengths).1
    rw [List.getLast?_append_of_ne_nil _ (by simp), List.getLast?_append_of_ne_nil _ (by simp)]
      at before
    exact absurd before (by decide)
  | v3 =>
    rw [loginMessage_toList, registerMessage_v3_toList] at lists
    have first := congrArg List.head? lists
    simp at first

end Templates

/-- A login message is never a registration message, in either generation, whatever the
nonce, the email and the two addresses; so the preimages of their personal-message digests
differ too, and a signed login digest equals a signed registration digest only through a
Keccak-256 collision. -/
theorem login_register_messages_separated (g : Generation) (nonce email : String)
    (a b : Address) :
    g.templates.loginMessage nonce a ≠ g.templates.registerMessage email b ∧
      Digest.personalPreimage (g.templates.loginMessage nonce a).toUTF8.toList ≠
        Digest.personalPreimage (g.templates.registerMessage email b).toUTF8.toList := by
  have different := Templates.loginMessage_ne_registerMessage g nonce email a b
  exact ⟨different, fun same => different (eq_of_utf8_eq (Digest.personalPreimage_injective same))⟩

end StakingHub
