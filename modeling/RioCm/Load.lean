import RioCm.Basic

/-!
# Load — module load and unload

`riocm_init` registers, one after the other, the kernel objects the channel manager needs,
and on a failure undoes part of what it did through the labels `err_sif`, `err_cl` and
`err_wq`; `riocm_exit` releases them at unload. The kernel's answer to each registration
is the environment's (`InitEnv`), and `riocmInit` returns the return value with the objects
left registered, in the order of registration. `class_create` answers a failure with an
error pointer, which the check `!dev_class` does not catch, so the load goes on without a
class. Whatever the answers, a load either succeeds holding every object it registered,
which `riocm_exit` releases, or fails with a nonzero code; a failure once
`alloc_chrdev_region` has succeeded leaves the character-device region (and the class, if
there is one) registered, since no error label releases them (`riocmInit_outcomes`).
-/

namespace RioCm

/-! ## riocm_init and riocm_exit -/

/-- The kernel objects `riocm_init` registers, in the order it registers them. -/
inductive KObj
  | devClass
  | chrdevRegion
  | riocmWq
  | mportInterface
  | riocmInterface
  | rebootNotifier
  | cdev
  | device
  deriving DecidableEq, Repr

/-- The kernel's answers to the registrations of `riocm_init`: whether `class_create` and
`create_singlethread_workqueue` return an object (`class_create` otherwise returns an
error pointer, the workqueue call `NULL`), and the return values of the others
(`deviceCreate` is 0 when `device_create` returns a device, and otherwise the `PTR_ERR` of
its error pointer). -/
structure InitEnv where
  classCreate : Bool
  allocChrdevRegion : Int
  createWorkqueue : Bool
  classInterfaceRegister : Int
  subsysInterfaceRegister : Int
  registerRebootNotifier : Int
  cdevAdd : Int
  deviceCreate : Int
  deriving DecidableEq, Repr

/-- `riocm_cdev_add(devno)`: the character device, then its device node; a failed
`device_create` deletes the character device again. Returns the return value and the
registered objects, `held` first. -/
def riocmCdevAdd (env : InitEnv) (held : List KObj) : Int × List KObj :=
  if env.cdevAdd < 0 then (env.cdevAdd, held)
  else if env.deviceCreate ≠ 0 then (env.deviceCreate, (held ++ [KObj.cdev]).erase .cdev)
  else (0, held ++ [.cdev, .device])

/-- The label `err_wq` of `riocm_init`: the workqueue is destroyed. -/
def errWq (ret : Int) (held : List KObj) : Int × List KObj :=
  (ret, held.erase .riocmWq)

/-- The label `err_cl`: the class interface is unregistered, then `err_wq`. -/
def errCl (ret : Int) (held : List KObj) : Int × List KObj :=
  errWq ret (held.erase .mportInterface)

/-- The label `err_sif`: the subsystem interface is unregistered, then `err_cl`. -/
def errSif (ret : Int) (held : List KObj) : Int × List KObj :=
  errCl ret (held.erase .riocmInterface)

/-- `riocm_init()`: the device class, the character-device region, the workqueue, the
mport class interface, the RapidIO bus interface, the reboot notifier, and last the
character device with its node. Returns the return value and the objects left
registered. The branch of `!dev_class` is never taken: `class_create` returns a class or an
error pointer, never `NULL`. -/
def riocmInit (env : InitEnv) : Int × List KObj :=
  let held := if env.classCreate then [KObj.devClass] else []
  if env.allocChrdevRegion ≠ 0 then (env.allocChrdevRegion, held.erase .devClass) else
  let held := held ++ [.chrdevRegion]
  if !env.createWorkqueue then (-Errno.nomem, held) else
  let held := held ++ [.riocmWq]
  if env.classInterfaceRegister ≠ 0 then errWq env.classInterfaceRegister held else
  let held := held ++ [.mportInterface]
  if env.subsysInterfaceRegister ≠ 0 then errCl env.subsysInterfaceRegister held else
  let held := held ++ [.riocmInterface]
  if env.registerRebootNotifier ≠ 0 then errSif env.registerRebootNotifier held else
  let held := held ++ [.rebootNotifier]
  let r := riocmCdevAdd env held
  if r.1 ≠ 0 then errSif (-Errno.nodev) (r.2.erase .rebootNotifier) else (0, r.2)

/-- `riocm_exit()`: what a load registered is released in this order (`idr_destroy` frees
only the memory of the channel table). -/
def riocmExit (held : List KObj) : List KObj :=
  [KObj.rebootNotifier, .riocmInterface, .mportInterface, .riocmWq, .device, .cdev,
    .devClass, .chrdevRegion].foldl List.erase held

/-- Every object `riocm_init` registers, in its order. -/
def KObj.all : List KObj :=
  [.devClass, .chrdevRegion, .riocmWq, .mportInterface, .riocmInterface, .rebootNotifier,
    .cdev, .device]

/-- Every load either succeeds, holding every object but a class `class_create` failed to
make, all of which an unload releases, or fails with a nonzero code; a failure after
`alloc_chrdev_region` leaves the character-device region registered, and the class if it
was made; one before it leaves nothing. -/
theorem riocmInit_outcomes (env : InitEnv) :
    let cls := if env.classCreate then [KObj.devClass] else []
    ((riocmInit env).1 = 0 ∧ (riocmInit env).2 = cls ++ KObj.all.tail ∧
        riocmExit (riocmInit env).2 = []) ∨
    ((riocmInit env).1 ≠ 0 ∧
      (riocmInit env).2 = if env.allocChrdevRegion = 0 then cls ++ [.chrdevRegion] else []) := by
  unfold riocmInit
  cases env.classCreate
  all_goals
    simp only [Bool.false_eq_true, if_false, if_true, List.nil_append, List.singleton_append,
      List.append_assoc, List.cons_append]
    by_cases ha : env.allocChrdevRegion = 0; swap
    · simp [ha]
    by_cases hw : env.createWorkqueue; swap
    · simp [ha, hw, Errno.nomem]
    by_cases hb : env.classInterfaceRegister = 0; swap
    · simp [ha, hw, hb, errWq]
    by_cases hc : env.subsysInterfaceRegister = 0; swap
    · simp [ha, hw, hb, hc, errCl, errWq]
    by_cases hd : env.registerRebootNotifier = 0; swap
    · simp [ha, hw, hb, hc, hd, errSif, errCl, errWq]
    unfold riocmCdevAdd
    by_cases he : env.cdevAdd < 0
    · simp [ha, hw, hb, hc, hd, he, Int.ne_of_lt he, errSif, errCl, errWq, Errno.nodev]
    by_cases hv : env.deviceCreate = 0; swap
    · simp [ha, hw, hb, hc, hd, he, hv, errSif, errCl, errWq, Errno.nodev]
    · simp [ha, hw, hb, hc, hd, he, hv, KObj.all]
      decide

example : riocmInit ⟨false, 0, false, 0, 0, 0, 0, 0⟩ = (-Errno.nomem, [.chrdevRegion]) := by
  decide

end RioCm
