import LdInit.Basic
import LdInit.Graph
import LdInit.Preorder
import LdInit.Loader.Link
import LdInit.Loader.Schedule
import LdInit.Loader.Session
import LdInit.Scope
import LdInit.Symbol.Hash
import LdInit.Symbol.Resolve
import LdInit.Tls
import LdInit.Loader.Relocate
import LdInit.Loader.Copy
import LdInit.Loader.Relocating
import LdInit.Universe.Elf
import LdInit.Universe.Registry
import LdInit.Universe.Invariant
import LdInit.Universe.Run
import LdInit.Universe.Graph
import LdInit.Universe.Placement
import LdInit.Posix
import LdInit.Linker
