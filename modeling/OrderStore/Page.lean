import OrderStore.Order.Mapping

namespace OrderStore

structure Page where
  items : List Order
  total : Value
  deriving Repr

namespace Page

def size (p : Page) : Nat := p.items.length

def hasTotal (p : Page) : Bool := !p.total.isNull

def orderNos (p : Page) : List Text := p.items.map Order.orderNo

end Page

end OrderStore
