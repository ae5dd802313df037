import ClassForge.Inflection.Inflector
import ClassForge.Output.Directory
import ClassForge.Registry.Basic

/-! # Loading classes on demand

Only names of generated classes are looked for. A class that is defined, or that has no file, is not
loaded, and that is no failure.
-/

namespace ClassForge

/-- What tells generated classes and finds their files. -/
structure Autoloader where
  inflector : Inflector
  directory : ClassDirectory
deriving DecidableEq, Repr

/-- Tries to load a class: whether its file was taken in, and the registry afterwards. -/
def Autoloader.load (loader : Autoloader) (registry : Registry) (store : FileStore)
    (name : String) : Except RegistryError Bool × Registry :=
  if registry.isDefined name then (.ok false, registry)
  else if !loader.inflector.isGenerated name then (.ok false, registry)
  else
    let path := loader.directory.pathOf name
    if !store.pathExists path then (.ok false, registry)
    else registry.require store path

end ClassForge
